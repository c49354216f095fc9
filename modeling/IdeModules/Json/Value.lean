import IdeModules.Number.Binary64

/-!
# JSON values

A value keeps the order of an object's members and tells whole numbers from
binary ones.  Where values are compared, `true` and `false` count as one and
zero and numbers are compared by what they are worth, so a *key* identifies a
value up to that comparison; arrays and objects have no key.
-/

namespace IdeModules.Json

/-- A JSON value. -/
inductive Value where
  | null
  | bool (value : Bool)
  | int (value : Int)
  | real (value : Binary64)
  | str (text : String)
  | arr (items : List Value)
  | obj (members : List (String × Value))
  deriving Inhabited, Repr

/-- What a value without parts is worth in comparisons. -/
inductive Key where
  | null
  | int (value : Int)
  | real (bits : Nat)
  | str (text : String)
  deriving DecidableEq, Repr

namespace Value

def key? : Value → Option Key
  | .null => some .null
  | .bool value => some (.int (if value then 1 else 0))
  | .int value => some (.int value)
  | .real value => some (match value.integer? with
    | some whole => .int whole
    | none => .real value.bits)
  | .str text => some (.str text)
  | .arr _ => none
  | .obj _ => none

/-- Whether a value counts as absent where only its presence matters. -/
def isEmpty : Value → Bool
  | .null => true
  | .bool value => !value
  | .int value => value == 0
  | .real value => value.integer? == some 0
  | .str text => text == ""
  | .arr items => items.isEmpty
  | .obj members => members.isEmpty

def lookup (name : String) : List (String × Value) → Option Value
  | [] => none
  | (other, value) :: rest =>
    match lookup name rest with
    | some later => some later
    | none => if other = name then some value else none

mutual

/-- Whether two values are worth the same: arrays item by item, objects member
by member in any order. -/
def same : Value → Value → Bool
  | .arr left, .arr right => sameItems left right
  | .obj left, .obj right => left.length == right.length && sameMembers left right
  | left, right => match left.key?, right.key? with
    | some leftKey, some rightKey => leftKey == rightKey
    | _, _ => false

/-- Whether two lists hold values of the same worth in the same order. -/
def sameItems : List Value → List Value → Bool
  | [], [] => true
  | left :: lefts, right :: rights => same left right && sameItems lefts rights
  | _, _ => false

/-- Whether every member of a list has a member of the same name and worth in another. -/
def sameMembers : List (String × Value) → List (String × Value) → Bool
  | [], _ => true
  | (name, value) :: rest, others =>
    (match lookup name others with
      | some other => same value other
      | none => false) && sameMembers rest others

end

/-- Whether a list holds a value of the same worth. -/
def isAmong (value : Value) (values : List Value) : Bool :=
  values.any (same value)

end Value

end IdeModules.Json
