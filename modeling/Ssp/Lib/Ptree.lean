import Mathlib.Algebra.Group.Nat.Defs
import Mathlib.Data.Nat.Notation
import Ssp.Lib.CString

/-!
# Property trees

What is read of an XML document: a node has data and children with keys, in the order of the
document. The text of an element is the data of its node, its attributes are the children of
its first child `<xmlattr>`.

A child is looked for along a path of keys, where the first child with a key counts. Numbers
are read from a stream of the data. A number that cannot be read is replaced by a default,
like one that is not there.
-/

namespace Ssp

/-- `ptree`. -/
inductive Ptree
  | node (data : Bytes) (children : List (Bytes × Ptree))

/-- The keys in a path. -/
def pathKeys (path : String) : List Bytes := path.toList.splitOn '.'

/-- The sign and the digits of a number, which may have white space around it. -/
def readNumber (s : Bytes) : Option (Bool × Bytes) :=
  let read (negative : Bool) (s : Bytes) :=
    let digits := s.takeWhile Char.isDigit
    if digits ≠ [] ∧ (s.dropWhile Char.isDigit).all isSpace then some (negative, digits) else none
  match s.dropWhile isSpace with
  | '-' :: s => read true s
  | '+' :: s => read false s
  | s => read false s

/-- `stream_translator<int>`, as the bits of an `unsigned int`. -/
def readInt (s : Bytes) : Option UInt32 :=
  match readNumber s with
  | some (true, digits) => if leadingDigits digits ≤ 2 ^ 31 then some (-.ofNat (leadingDigits digits)) else none
  | some (false, digits) => if leadingDigits digits < 2 ^ 31 then some (.ofNat (leadingDigits digits)) else none
  | none => none

/-- `stream_translator<unsigned int>`: a negative number is taken modulo `2 ^ 32`. -/
def readUInt32 (s : Bytes) : Option UInt32 :=
  (readNumber s).bind fun (negative, digits) =>
    if leadingDigits digits < 2 ^ 32 then
      some (if negative then -.ofNat (leadingDigits digits) else .ofNat (leadingDigits digits))
    else none

/-- `stream_translator<unsigned long>`. -/
def readUInt64 (s : Bytes) : Option UInt64 :=
  (readNumber s).bind fun (negative, digits) =>
    if leadingDigits digits < 2 ^ 64 then
      some (if negative then -.ofNat (leadingDigits digits) else .ofNat (leadingDigits digits))
    else none

namespace Ptree

def data : Ptree → Bytes
  | node data _ => data

def children : Ptree → List (Bytes × Ptree)
  | node _ children => children

/-- The children of a key. -/
def childrenOf (t : Ptree) (key : String) : List Ptree :=
  (t.children.filter fun child => child.1 = key.toList).map Prod.snd

/-- `walk_path`. -/
def walkPath : List Bytes → Ptree → Option Ptree
  | [], t => some t
  | key :: keys, t => (t.children.find? fun child => child.1 = key).bind fun child => walkPath keys child.2

/-- `get_child_optional`. -/
def getChild? (t : Ptree) (path : String) : Option Ptree := walkPath (pathKeys path) t

/-- `get_optional<string>`. -/
def get? (t : Ptree) (path : String) : Option Bytes := (t.getChild? path).map data

/-- `get<string>`, with a default. -/
def getString (t : Ptree) (path : String) (default : String) : Bytes := (t.get? path).getD default.toList

/-- `get<int>`, with a default. -/
def getInt (t : Ptree) (path : String) (default : UInt32) : UInt32 :=
  ((t.get? path).bind readInt).getD default

/-- `get<unsigned int>`, with a default. -/
def getUInt32 (t : Ptree) (path : String) (default : UInt32) : UInt32 :=
  ((t.get? path).bind readUInt32).getD default

/-- `get<unsigned long>`, with a default. -/
def getUInt64 (t : Ptree) (path : String) (default : UInt64) : UInt64 :=
  ((t.get? path).bind readUInt64).getD default

/-- What is read of an element. -/
def element (name : String) (attributes : List (String × String)) (text : String)
    (children : List (Bytes × Ptree)) : Bytes × Ptree :=
  (name.toList, .node text.toList
    (("<xmlattr>".toList, .node [] (attributes.map fun a => (a.1.toList, .node a.2.toList []))) :: children))

end Ptree

example : readUInt32 " +5061\n".toList = some 5061 := by decide
example : readUInt32 "-1".toList = some 4294967295 := by decide
example : readInt "5061 5062".toList = none := by decide

end Ssp
