/-! The ways in which running code can fail, and what they are called. -/
namespace Scratchpad

inductive FaultKind where
  | nameError | unboundLocalError | typeError | valueError | zeroDivisionError | indexError
  | keyError | attributeError | overflowError | recursionError | systemError
deriving Repr, DecidableEq

def FaultKind.name : FaultKind → String
  | .nameError => "NameError"
  | .unboundLocalError => "UnboundLocalError"
  | .typeError => "TypeError"
  | .valueError => "ValueError"
  | .zeroDivisionError => "ZeroDivisionError"
  | .indexError => "IndexError"
  | .keyError => "KeyError"
  | .attributeError => "AttributeError"
  | .overflowError => "OverflowError"
  | .recursionError => "RecursionError"
  | .systemError => "SystemError"

/-- How many arguments something takes; no `most` means any number. -/
structure Arity where
  least : Nat
  most : Option Nat := some least
deriving Repr, DecidableEq

def Arity.admits (a : Arity) (given : Nat) : Bool :=
  a.least ≤ given && match a.most with
    | some most => given ≤ most
    | none => true

inductive Division where
  | plain | integer | floatFloor | floatModulo | power
deriving Repr, DecidableEq

def Division.message : Division → String
  | .plain => "division by zero"
  | .integer => "integer division or modulo by zero"
  | .floatFloor => "float floor division by zero"
  | .floatModulo => "float modulo"
  | .power => "0.0 cannot be raised to a negative power"

/-- A table of compiled code. -/
inductive CodeTable where
  | constants | names | locals
deriving Repr, DecidableEq

def CodeTable.entry : CodeTable → String
  | .constants => "constant"
  | .names => "name"
  | .locals => "local"

/-- What stops code that breaks the rules of the machine. -/
inductive Breakage where
  | stackUnderflow (code : String)
  | badIndex (table : CodeTable) (index : Nat)
  | codeAsValue (code : String)
  | notCode (index : Nat)
  | noIterator (code : String)
  | strayPointer (pc : Nat) (code : String)
deriving Repr, DecidableEq

def Breakage.message : Breakage → String
  | .stackUnderflow code => "stack underflow in " ++ code
  | .badIndex table index => table.entry ++ " index " ++ toString index ++ " out of range"
  | .codeAsValue code => "code object " ++ code ++ " loaded as a value"
  | .notCode index => "constant " ++ toString index ++ " is not a code object"
  | .noIterator code => "no active iterator in " ++ code
  | .strayPointer pc code => "instruction pointer " ++ toString pc ++ " out of range in " ++ code

/-- Why code failed. Types stand by their names, values by their texts. -/
inductive Fault where
  | undefinedName (name : String)
  | unboundLocal (name : String)
  -- operators
  | badUnary (symbol type : String)
  | badOperands (symbol left right : String)
  | unordered (symbol left right : String)
  | overflow
  | divisionByZero (division : Division)
  | repeatTooLong
  | textNeedle (type : String)
  | notContainer (type : String)
  | tooDeep (activity : String)
  | unhashable (type : String)
  -- iteration and subscripts
  | notIterable (type : String)
  | tooFewToUnpack (expected given : Nat)
  | tooManyToUnpack (expected : Nat)
  | badIndexType (sequence type : String)
  | indexOutOfRange (sequence : String)
  | assignmentOutOfRange
  | missingKey (key : String)
  | notSubscriptable (type : String)
  | noItemAssignment (type : String)
  -- attributes and methods
  | noAttribute (type name : String)
  | readOnlyAttribute (type name : String)
  | methodArity (type name : String) (arity : Arity) (given : Nat)
  | popEmpty
  | popOutOfRange
  | notInList (item : String)
  | notText (method type : String)
  | emptySeparator
  | joinItem (index : Nat) (type : String)
  -- calls
  | notCallable (type : String)
  | functionArity (name : String) (expected given : Nat)
  | tooManyCalls
  | builtinArity (name : String) (arity : Arity) (given : Nat)
  | notIndex (builtin type : String)
  | zeroStep
  | noLength (type : String)
  | badMagnitude (type : String)
  | emptyChoice (builtin : String)
  | sumOfTexts
  | notANumber
  | tooLargeForInt (float : String)
  | badIntText (text : String)
  | badFloatText (text : String)
  | notNumeric (builtin type : String)
  -- code
  | broken (breakage : Breakage)
deriving Repr, DecidableEq

namespace Fault

def kind : Fault → FaultKind
  | undefinedName _ => .nameError
  | unboundLocal _ => .unboundLocalError
  | badUnary .. | badOperands .. | unordered .. | textNeedle _ | notContainer _ | unhashable _
  | notIterable _ | badIndexType .. | notSubscriptable _ | noItemAssignment _ | methodArity ..
  | notText .. | joinItem .. | notCallable _ | functionArity .. | builtinArity .. | notIndex ..
  | noLength _ | badMagnitude _ | sumOfTexts | notNumeric .. => .typeError
  | tooFewToUnpack .. | tooManyToUnpack _ | notInList _ | emptySeparator | zeroStep
  | emptyChoice _ | notANumber | badIntText _ | badFloatText _ => .valueError
  | divisionByZero _ => .zeroDivisionError
  | indexOutOfRange _ | assignmentOutOfRange | popEmpty | popOutOfRange => .indexError
  | missingKey _ => .keyError
  | noAttribute .. | readOnlyAttribute .. => .attributeError
  | overflow | repeatTooLong | tooLargeForInt _ => .overflowError
  | tooDeep _ | tooManyCalls => .recursionError
  | broken _ => .systemError

def quote (s : String) : String := "'" ++ s ++ "'"

def methodArityText (a : Arity) : String :=
  match a.most with
  | some most =>
    if a.least = most then "exactly " ++ toString most
    else toString a.least ++ " to " ++ toString most
  | none => "at least " ++ toString a.least

def builtinArityText (a : Arity) (given : Nat) : String :=
  if a.most = some a.least then
    "exactly " ++ toString a.least ++ if a.least = 1 then " argument" else " arguments"
  else match a.most with
    | some most =>
      if given < a.least then "at least " ++ toString a.least ++ " arguments"
      else "at most " ++ toString most ++ " arguments"
    | none => "at least " ++ toString a.least ++ " arguments"

def message : Fault → String
  | undefinedName name => "name " ++ quote name ++ " is not defined"
  | unboundLocal name =>
    "cannot access local variable " ++ quote name ++ " where it is not associated with a value"
  | badUnary symbol type => "bad operand type for unary " ++ symbol ++ ": " ++ quote type
  | badOperands symbol left right =>
    "unsupported operand type(s) for " ++ symbol ++ ": " ++ quote left ++ " and " ++ quote right
  | unordered symbol left right =>
    quote symbol ++ " not supported between instances of " ++ quote left ++ " and " ++ quote right
  | overflow => "integer overflow"
  | divisionByZero division => division.message
  | repeatTooLong => "repeated sequence is too long"
  | textNeedle type => "'in <string>' requires string as left operand, not " ++ type
  | notContainer type => "argument of type " ++ quote type ++ " is not iterable"
  | tooDeep activity => "maximum recursion depth exceeded in " ++ activity
  | unhashable type => "unhashable type: " ++ quote type
  | notIterable type => quote type ++ " object is not iterable"
  | tooFewToUnpack expected given =>
    "not enough values to unpack (expected " ++ toString expected ++ ", got " ++ toString given ++
      ")"
  | tooManyToUnpack expected =>
    "too many values to unpack (expected " ++ toString expected ++ ")"
  | badIndexType sequence type => sequence ++ " indices must be integers, not " ++ type
  | indexOutOfRange sequence => sequence ++ " index out of range"
  | assignmentOutOfRange => "list assignment index out of range"
  | missingKey key => key
  | notSubscriptable type => quote type ++ " object is not subscriptable"
  | noItemAssignment type => quote type ++ " object does not support item assignment"
  | noAttribute type name => quote type ++ " object has no attribute " ++ quote name
  | readOnlyAttribute type name => quote type ++ " object attribute " ++ quote name ++ " is read-only"
  | methodArity type name arity given =>
    type ++ "." ++ name ++ "() takes " ++ methodArityText arity ++ " argument(s) (" ++
      toString given ++ " given)"
  | popEmpty => "pop from empty list"
  | popOutOfRange => "pop index out of range"
  | notInList item => item ++ " is not in list"
  | notText method type => method ++ "() argument must be str, not " ++ type
  | emptySeparator => "empty separator"
  | joinItem index type =>
    "sequence item " ++ toString index ++ ": expected str instance, " ++ type ++ " found"
  | notCallable type => quote type ++ " object is not callable"
  | functionArity name expected given =>
    name ++ "() takes " ++ toString expected ++ " positional argument" ++
      (if expected = 1 then "" else "s") ++ " but " ++ toString given ++
      (if given = 1 then " was" else " were") ++ " given"
  | tooManyCalls => "maximum recursion depth exceeded"
  | builtinArity name arity given =>
    name ++ "() takes " ++ builtinArityText arity given ++ " (" ++ toString given ++ " given)"
  | notIndex builtin type =>
    quote type ++ " object cannot be interpreted as an integer (in " ++ builtin ++ "())"
  | zeroStep => "range() arg 3 must not be zero"
  | noLength type => "object of type " ++ quote type ++ " has no len()"
  | badMagnitude type => "bad operand type for abs(): " ++ quote type
  | emptyChoice builtin => builtin ++ "() arg is an empty sequence"
  | sumOfTexts => "sum() can't sum strings [use ''.join(seq) instead]"
  | notANumber => "cannot convert float NaN to integer"
  | tooLargeForInt float => "cannot convert float " ++ float ++ " to integer"
  | badIntText text => "invalid literal for int() with base 10: " ++ text
  | badFloatText text => "could not convert string to float: " ++ text
  | notNumeric builtin type =>
    builtin ++ "() argument must be a string or a number, not " ++ quote type
  | broken breakage => breakage.message

end Fault

end Scratchpad
