import RecordText.Query.Grammar

/-!
# Defined filters

Many filters are defined by terms over the built-in ones. Their definitions are
kept as the text of a query and are read when one of them is looked up.
-/

namespace RecordText.Query

/-- The text of the definitions. -/
def preludeText : String :=
  "def error(f): f | error;
def not: if . then false else true end;
def select(f): if f then . else empty end;
def values: select(. != null);
def nulls: select(. == null);
def booleans: select(type == \"boolean\");
def numbers: select(type == \"number\");
def strings: select(type == \"string\");
def arrays: select(type == \"array\");
def objects: select(type == \"object\");
def iterables: select(. >= []);
def scalars: select(. < []);
def recurse(f): def rec: ., (f | rec); rec;
def recurse: recurse(.[]?);
def map(f): [.[] | f];
def map_values(f): .[] |= f;
def del(f): f |= empty;
def add(f): reduce f as $x (null; . + $x);
def add: add(.[]);
def range($n): range(0; $n; 1);
def range($from; $to): range($from; $to; 1);
def first: .[0];
def last: .[-1];
def isempty(f): first((f | false), true);
def all(f; test): isempty(first(f | test and empty));
def any(f; test): isempty(first(f | test or empty)) | not;
def all(test): all(.[]; test);
def any(test): any(.[]; test);
def all: all(.[]; .);
def any: any(.[]; .);
def keys: keys_unsorted | sort;
def sort: sort_by(.);
def unique_by(f): [group_by(f)[] | .[0]];
def unique: unique_by(.);
def min: min_by(.);
def max: max_by(.);
def reverse: if type == \"string\" then explode | reverse | implode
  else [.[length - 1 - range(length)]] end;
def flatten: [recurse(arrays | .[]) | select(type != \"array\")];
def flatten($depth): if $depth > 0
  then [.[] | if type == \"array\" then flatten($depth - 1) | .[] else . end] else . end;
def to_entries: [keys_unsorted[] as $k | \x7bkey: $k, value: .[$k]\x7d];
def from_entries: reduce .[] as $x (\x7b\x7d; . + \x7b($x | .key): ($x | .value)\x7d);
def with_entries(f): to_entries | map(f) | from_entries;
def join($s): if length == 0 then \"\" else reduce .[1:][] as $x (.[0]; . + $s + $x) end;
def until(test; f): def rec: if test then . else f | rec end; rec;
def while(test; f): def rec: if test then ., (f | rec) else empty end; rec;
def repeat(f): def rec: ., (f | rec); rec;
def inputs: empty;
def input: empty;
"

/-- The definitions. -/
def prelude : List Definition :=
  ((lexemes? preludeText).bind fun lexemes =>
    readDefinitions? (8 * preludeText.length) lexemes).getD []

/-- Look a definition up by its name and number of parameters. -/
def preludeDefinition? (name : String) (arity : Nat) : Option Definition :=
  prelude.find? fun definition => definition.name == name && definition.params.length == arity

end RecordText.Query
