import AddressBook.Assoc
import AddressBook.Number.Binary64
/-!
# JSON values

A JSON value keeps the order of the members of its objects, and keeps whole numbers apart from doubles:
a number is an `int` when it was written without point and exponent and fits 64 bits, signed or
unsigned, and a `float` otherwise.

Objects are lists of members. A repeated key keeps the place of its first occurrence and the value of
its last, which is what `Assoc.insert` does; every object that is read is built with it, so its keys are
pairwise distinct.
-/

namespace AddressBook

open Number (Binary64)

inductive Json where
  | null
  | bool (value : Bool)
  | int (value : Int)
  | float (value : Binary64)
  | str (value : String)
  | arr (items : List Json)
  | obj (members : List (String × Json))
deriving Inhabited

/-- The members of an object, in order. -/
abbrev Members := Assoc String Json

namespace Json

/-! ### Equality -/

mutual

/-- Whether two values are the same, member order included. -/
def same : Json → Json → Bool
  | null, null => true
  | bool a, bool b => a == b
  | int a, int b => a == b
  | float a, float b => a == b
  | str a, str b => a == b
  | arr a, arr b => sameItems a b
  | obj a, obj b => sameMembers a b
  | _, _ => false

def sameItems : List Json → List Json → Bool
  | [], [] => true
  | a :: as, b :: bs => same a b && sameItems as bs
  | _, _ => false

def sameMembers : List (String × Json) → List (String × Json) → Bool
  | [], [] => true
  | (k, a) :: as, (l, b) :: bs => k == l && same a b && sameMembers as bs
  | _, _ => false

end

mutual

theorem eq_of_same : ∀ {a b : Json}, same a b = true → a = b
  | null, b, h => by cases b <;> simp_all [same]
  | bool _, b, h => by cases b <;> simp_all [same]
  | int _, b, h => by cases b <;> simp_all [same]
  | float _, b, h => by cases b <;> simp_all [same]
  | str _, b, h => by cases b <;> simp_all [same]
  | arr as, b, h => by
      cases b with
      | arr bs =>
          have h : sameItems as bs = true := by simpa [same] using h
          rw [eq_of_sameItems h]
      | _ => simp [same] at h
  | obj as, b, h => by
      cases b with
      | obj bs =>
          have h : sameMembers as bs = true := by simpa [same] using h
          rw [eq_of_sameMembers h]
      | _ => simp [same] at h

theorem eq_of_sameItems : ∀ {as bs : List Json}, sameItems as bs = true → as = bs
  | [], bs, h => by cases bs <;> simp_all [sameItems]
  | a :: as, bs, h => by
      cases bs with
      | nil => simp [sameItems] at h
      | cons b bs =>
          simp only [sameItems, Bool.and_eq_true] at h
          rw [eq_of_same h.1, eq_of_sameItems h.2]

theorem eq_of_sameMembers : ∀ {as bs : List (String × Json)}, sameMembers as bs = true → as = bs
  | [], bs, h => by cases bs <;> simp_all [sameMembers]
  | (k, a) :: as, bs, h => by
      cases bs with
      | nil => simp [sameMembers] at h
      | cons b bs =>
          obtain ⟨l, b⟩ := b
          simp only [sameMembers, Bool.and_eq_true, beq_iff_eq] at h
          rw [h.1.1, eq_of_same h.1.2, eq_of_sameMembers h.2]

end

mutual

theorem same_self : ∀ a : Json, same a a = true
  | null => rfl
  | bool _ => by simp [same]
  | int _ => by simp [same]
  | float _ => by simp [same]
  | str _ => by simp [same]
  | arr as => by simp [same, sameItems_self as]
  | obj as => by simp [same, sameMembers_self as]

theorem sameItems_self : ∀ as : List Json, sameItems as as = true
  | [] => rfl
  | a :: as => by simp [sameItems, same_self a, sameItems_self as]

theorem sameMembers_self : ∀ as : List (String × Json), sameMembers as as = true
  | [] => rfl
  | (_, a) :: as => by simp [sameMembers, same_self a, sameMembers_self as]

end

instance : DecidableEq Json := fun a b =>
  if h : same a b then .isTrue (eq_of_same h) else .isFalse fun e => h (e ▸ same_self a)

/-! ### Views of a value -/

def asString? : Json → Option String
  | str s => some s
  | _ => none

def asBool? : Json → Option Bool
  | bool b => some b
  | _ => none

def asArray? : Json → Option (List Json)
  | arr items => some items
  | _ => none

def asObject? : Json → Option Members
  | obj members => some members
  | _ => none

/-- The least whole number of 64 signed bits. -/
def leastSigned : Int := -Nat.pow 2 63

/-- The first whole number above those of 64 signed bits. -/
def signedBound : Int := Nat.pow 2 63

/-- A whole number that fits 64 signed bits. -/
def asSigned? : Json → Option Int
  | int n => if leastSigned ≤ n && n < signedBound then some n else none
  | _ => none

def isString (value : Json) : Bool := value.asString?.isSome

def isBool (value : Json) : Bool := value.asBool?.isSome

def isObject (value : Json) : Bool := value.asObject?.isSome

/-- Whether the value is a number of the integer class. -/
def isInteger : Json → Bool
  | int _ => true
  | _ => false

def isNull : Json → Bool
  | null => true
  | _ => false

/-- Whether the value counts as no value: `null` or an empty string, array or object. -/
def isEmpty : Json → Bool
  | null => true
  | str s => s.isEmpty
  | arr items => items.isEmpty
  | obj members => members.isEmpty
  | bool _ | int _ | float _ => false

end Json

end AddressBook
