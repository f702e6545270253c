/-! The words that scripts know before they define any. -/

namespace CostTape.Script

inductive CoreFunction where
  | add
  | sub
  | mul
  | div
  | mod
  | less
  | greater
  | lessEqual
  | greaterEqual
  | equal
  | notEqual
  | not
  | list
  | array
  | first
  | rest
  | aget
  | len
  | concat
  | str
  | map
deriving DecidableEq

namespace CoreFunction

def all : List CoreFunction :=
  [add, sub, mul, div, mod, less, greater, lessEqual, greaterEqual, equal, notEqual,
    not, list, array, first, rest, aget, len, concat, str, map]

def name : CoreFunction → String
  | add => "+"
  | sub => "-"
  | mul => "*"
  | div => "/"
  | mod => "mod"
  | less => "<"
  | greater => ">"
  | lessEqual => "<="
  | greaterEqual => ">="
  | equal => "=="
  | notEqual => "!="
  | not => "not"
  | list => "list"
  | array => "array"
  | first => "first"
  | rest => "rest"
  | aget => "aget"
  | len => "len"
  | concat => "concat"
  | str => "str"
  | map => "map"

def ofName? (name : String) : Option CoreFunction :=
  all.find? fun function => function.name == name

end CoreFunction

namespace Vocabulary

/-- Names of functions that scripts have and cannot redefine, but that work on values
which are not modelled.  Only the names are known here, so that a call of one finds it
unbound. -/
def otherFunctions : List String :=
  ["pretty", "isnan", "isNaN", "sll", "sra", "srl", "**", "bitAnd", "bitOr", "bitXor",
    "bitNot", "read", "cons", "second", "car", "cdr", "type?", "list?", "null?",
    "array?", "hash?", "number?", "int?", "float?", "char?", "symbol?", "string?",
    "zero?", "empty?", "func?", "apply", "makeArray", "aset", "sget", "hget", "hset",
    "hdel", "keys", "hpair", "slice", "append", "appendslice", "field", "struct",
    "hash", "raw", "->", "flatten", "quotelist", "=", ":=", "fieldls", "defined?",
    "stop", "joinsym", "GOOS", "&", "derefSet", "deref", ".", "arrayidx", "hashidx",
    "asUint64", "nsplit", "split", "chomp", "trim", "println", "print", "printf",
    "sprintf", "raw2str", "str2sym", "sym2str", "gensym", "symnum", "json", "unjson",
    "msgpack", "unmsgpack"]

def reserved : List String :=
  ["byte", "defbuild", "builder", "field", "and", "or", "cond", "quote", "def", "mdef",
    "fn", "defn", "begin", "let", "letseq", "assert", "defmac", "macexpand",
    "syntaxQuote", "include", "for", "set", "break", "continue", "newScope", "_ls",
    "int8", "int16", "int32", "int64", "uint8", "uint16", "uint32", "uint64",
    "float32", "float64", "complex64", "complex128", "bool", "string", "any", "case",
    "chan", "const", "default", "else", "defer", "fallthrough", "func", "go", "goto",
    "if", "import", "interface", "map", "package", "range", "return", "select",
    "struct", "switch", "type", "var", "append", "cap", "close", "complex", "copy",
    "delete", "imag", "len", "make", "new", "panic", "print", "println", "real",
    "recover", "null", "nil", "-", "+", "--", "++", "-=", "+=", ":=", "=", ">", "<",
    ">=", "<=", "send", "NaN", "nan"]

/-- What protects a name from being redefined, if anything does. -/
def protection? (name : String) : Option String :=
  if (CoreFunction.ofName? name).isSome || otherFunctions.contains name then
    some "built-in function"
  else if reserved.contains name then
    some "reserved word"
  else
    none

def isKnown (given : List String) (name : String) : Bool :=
  (protection? name).isSome || given.contains name || [",", "[]", "!"].contains name

/-- How many names are known before a script is read: the vocabulary, three
marks, and the functions that it is run with. -/
def size (given : List String) : Nat :=
  ((CoreFunction.all.map CoreFunction.name ++ otherFunctions ++ reserved ++
    [",", "[]", "!"] ++ given).eraseDups).length

end Vocabulary

end CostTape.Script
