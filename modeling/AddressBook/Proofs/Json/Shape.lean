import AddressBook.Json.Number
import AddressBook.Proofs.Assoc
/-!
# The shape of JSON values

How deep a value nests, which doubles it holds, and when it is one that a text can stand for: its whole numbers fit 64
bits and no object has a key twice. Replacing the doubles of a value by others leaves all of that as it is.
-/

namespace AddressBook.Json

open Number (Binary64)

/-- To prove something of every value, prove it of arrays and objects from their parts. -/
theorem induct {P : Json → Prop} (hnull : P null) (hbool : ∀ b, P (bool b)) (hint : ∀ n, P (int n))
    (hfloat : ∀ x, P (float x)) (hstr : ∀ s, P (str s)) (harr : ∀ items, (∀ item ∈ items, P item) → P (arr items))
    (hobj : ∀ members, (∀ member ∈ members, P member.2) → P (obj members)) (value : Json) : P value := by
  cases value with
  | null => exact hnull
  | bool b => exact hbool b
  | int n => exact hint n
  | float x => exact hfloat x
  | str s => exact hstr s
  | arr items =>
      refine harr items fun item hmem => ?_
      have := List.sizeOf_lt_of_mem hmem
      exact induct hnull hbool hint hfloat hstr harr hobj item
  | obj members =>
      refine hobj members fun member hmem => ?_
      have := List.sizeOf_lt_of_mem hmem
      have : sizeOf member.2 < sizeOf member := by
        cases member
        simp only [Prod.mk.sizeOf_spec]
        omega
      exact induct hnull hbool hint hfloat hstr harr hobj member.2
termination_by sizeOf value

theorem asString?_eq_some_iff {value : Json} {s : String} : value.asString? = some s ↔ value = .str s := by
  cases value <;> simp [asString?]

theorem asArray?_eq_some_iff {value : Json} {items : List Json} : value.asArray? = some items ↔ value = .arr items := by
  cases value <;> simp [asArray?]

/-! ### Depth -/

mutual

/-- How deep the arrays and objects of a value nest. -/
def depth : Json → Nat
  | null | bool _ | int _ | float _ | str _ => 0
  | arr items => depthOfItems items + 1
  | obj members => depthOfMembers members + 1

def depthOfItems : List Json → Nat
  | [] => 0
  | item :: rest => max (depth item) (depthOfItems rest)

def depthOfMembers : List (String × Json) → Nat
  | [] => 0
  | (_, value) :: rest => max (depth value) (depthOfMembers rest)

end

theorem depthOfItems_le_iff {items : List Json} {d : Nat} :
    depthOfItems items ≤ d ↔ ∀ item ∈ items, item.depth ≤ d := by
  induction items with
  | nil => simp [depthOfItems]
  | cons item rest ih => rw [depthOfItems, Nat.max_le, ih, List.forall_mem_cons]

theorem depthOfMembers_le_iff {members : List (String × Json)} {d : Nat} :
    depthOfMembers members ≤ d ↔ ∀ member ∈ members, member.2.depth ≤ d := by
  induction members with
  | nil => simp [depthOfMembers]
  | cons member rest ih => rw [depthOfMembers, Nat.max_le, ih, List.forall_mem_cons]

theorem depth_arr_le_iff {items : List Json} {d : Nat} :
    (arr items).depth ≤ d + 1 ↔ ∀ item ∈ items, item.depth ≤ d := by
  rw [depth, Nat.succ_le_succ_iff, depthOfItems_le_iff]

theorem depth_obj_le_iff {members : List (String × Json)} {d : Nat} :
    (obj members).depth ≤ d + 1 ↔ ∀ member ∈ members, member.2.depth ≤ d := by
  rw [depth, Nat.succ_le_succ_iff, depthOfMembers_le_iff]

/-! ### Values of texts -/

/-- A whole number fits 64 bits, signed or unsigned. -/
def Fits64 (n : Int) : Prop := leastSigned ≤ n ∧ n < unsignedBound

/-- The whole numbers of a value fit 64 bits, and no object has a key twice. -/
inductive WellFormed : Json → Prop
  | null : WellFormed null
  | bool (b : Bool) : WellFormed (bool b)
  | int {n : Int} (hfits : Fits64 n) : WellFormed (int n)
  | float (x : Binary64) : WellFormed (float x)
  | str (s : String) : WellFormed (str s)
  | arr {items : List Json} (hitems : ∀ item ∈ items, WellFormed item) : WellFormed (arr items)
  | obj {members : List (String × Json)} (hnodup : (Assoc.keys members).Nodup)
      (hmembers : ∀ member ∈ members, WellFormed member.2) : WellFormed (obj members)

theorem WellFormed.nodup_keys {members : Members} (hobj : (Json.obj members).WellFormed) : members.keys.Nodup := by
  cases hobj with
  | obj hnodup _ => exact hnodup

theorem WellFormed.member {members : Members} (hobj : (Json.obj members).WellFormed) {member : String × Json}
    (hmem : member ∈ members) : member.2.WellFormed := by
  cases hobj with
  | obj _ hmembers => exact hmembers member hmem

/-! ### Doubles -/

mutual

/-- The doubles of a value, in order. -/
def floats : Json → List Binary64
  | null | bool _ | int _ | str _ => []
  | float x => [x]
  | arr items => floatsOfItems items
  | obj members => floatsOfMembers members

def floatsOfItems : List Json → List Binary64
  | [] => []
  | item :: rest => floats item ++ floatsOfItems rest

def floatsOfMembers : List (String × Json) → List Binary64
  | [] => []
  | (_, value) :: rest => floats value ++ floatsOfMembers rest

end

theorem mem_floatsOfItems {items : List Json} {x : Binary64} :
    x ∈ floatsOfItems items ↔ ∃ item ∈ items, x ∈ item.floats := by
  induction items with
  | nil => simp [floatsOfItems]
  | cons item rest ih => simp [floatsOfItems, ih]

theorem mem_floatsOfMembers {members : List (String × Json)} {x : Binary64} :
    x ∈ floatsOfMembers members ↔ ∃ member ∈ members, x ∈ member.2.floats := by
  induction members with
  | nil => simp [floatsOfMembers]
  | cons member rest ih =>
      rw [floatsOfMembers, List.mem_append, ih]
      simp

mutual

/-- The value with other doubles in the places of its own. -/
def withFloats (f : Binary64 → Binary64) : Json → Json
  | null => null
  | bool b => bool b
  | int n => int n
  | float x => float (f x)
  | str s => str s
  | arr items => arr (withFloatsInItems f items)
  | obj members => obj (withFloatsInMembers f members)

def withFloatsInItems (f : Binary64 → Binary64) : List Json → List Json
  | [] => []
  | item :: rest => withFloats f item :: withFloatsInItems f rest

def withFloatsInMembers (f : Binary64 → Binary64) : List (String × Json) → List (String × Json)
  | [] => []
  | (key, value) :: rest => (key, withFloats f value) :: withFloatsInMembers f rest

end

variable {f : Binary64 → Binary64}

theorem withFloatsInItems_eq_map (items : List Json) : withFloatsInItems f items = items.map (withFloats f) := by
  induction items with
  | nil => rfl
  | cons item rest ih => rw [withFloatsInItems, ih, List.map_cons]

theorem withFloatsInMembers_eq_map (members : List (String × Json)) :
    withFloatsInMembers f members = members.map fun member => (member.1, member.2.withFloats f) := by
  induction members with
  | nil => rfl
  | cons member rest ih => rw [withFloatsInMembers, ih, List.map_cons]

theorem withFloats_arr (items : List Json) : (arr items).withFloats f = arr (items.map (withFloats f)) := by
  rw [withFloats, withFloatsInItems_eq_map]

theorem withFloats_obj (members : List (String × Json)) :
    (obj members).withFloats f = obj (members.map fun member => (member.1, member.2.withFloats f)) := by
  rw [withFloats, withFloatsInMembers_eq_map]

theorem keys_withFloatsInMembers (members : List (String × Json)) :
    Assoc.keys (withFloatsInMembers f members) = Assoc.keys members := by
  rw [withFloatsInMembers_eq_map, Assoc.keys, List.map_map]
  rfl

theorem get?_withFloatsInMembers (members : Members) (key : String) :
    Assoc.get? (withFloatsInMembers f members) key = (members.get? key).map (withFloats f) := by
  induction members with
  | nil => rfl
  | cons member rest ih =>
      obtain ⟨k, value⟩ := member
      rw [withFloatsInMembers, Assoc.get?, Assoc.get?]
      split
      · rfl
      · exact ih

mutual

@[simp] theorem depth_withFloats : ∀ value : Json, (value.withFloats f).depth = value.depth
  | null | bool _ | int _ | float _ | str _ => rfl
  | arr items => by rw [withFloats, depth, depth, depthOfItems_withFloats items]
  | obj members => by rw [withFloats, depth, depth, depthOfMembers_withFloats members]

theorem depthOfItems_withFloats : ∀ items : List Json, depthOfItems (withFloatsInItems f items) = depthOfItems items
  | [] => rfl
  | item :: rest => by
      rw [withFloatsInItems, depthOfItems, depthOfItems, depth_withFloats item, depthOfItems_withFloats rest]

theorem depthOfMembers_withFloats :
    ∀ members : List (String × Json), depthOfMembers (withFloatsInMembers f members) = depthOfMembers members
  | [] => rfl
  | (_, value) :: rest => by
      rw [withFloatsInMembers, depthOfMembers, depthOfMembers, depth_withFloats value, depthOfMembers_withFloats rest]

end

theorem WellFormed.withFloats {value : Json} (hvalue : value.WellFormed) : (value.withFloats f).WellFormed := by
  induction hvalue with
  | null => exact .null
  | bool b => exact .bool b
  | int hfits => exact .int hfits
  | float x => exact .float (f x)
  | str s => exact .str s
  | arr _ ih =>
      rw [withFloats_arr]
      refine .arr fun item hmem => ?_
      obtain ⟨own, hown, rfl⟩ := List.mem_map.1 hmem
      exact ih own hown
  | @obj members hnodup _ ih =>
      rw [Json.withFloats]
      refine .obj ((keys_withFloatsInMembers members).symm ▸ hnodup) fun member hmem => ?_
      rw [withFloatsInMembers_eq_map] at hmem
      obtain ⟨own, hown, rfl⟩ := List.mem_map.1 hmem
      exact ih own hown

theorem withFloats_eq_self {value : Json} (hfloats : ∀ x ∈ value.floats, f x = x) : value.withFloats f = value := by
  induction value using induct with
  | hnull | hbool | hint | hstr => rfl
  | hfloat x => rw [withFloats, hfloats x List.mem_cons_self]
  | harr items ih =>
      rw [withFloats_arr]
      refine congrArg arr ((List.map_congr_left fun item hmem => ?_).trans (List.map_id items))
      exact ih item hmem fun x hx => hfloats x (mem_floatsOfItems.2 ⟨item, hmem, hx⟩)
  | hobj members ih =>
      rw [withFloats_obj]
      refine congrArg obj ((List.map_congr_left fun member hmem => ?_).trans (List.map_id members))
      have hvalue := ih member hmem fun x hx => hfloats x (mem_floatsOfMembers.2 ⟨member, hmem, hx⟩)
      rw [hvalue, id]

theorem withFloats_eq_self_iff {value : Json} : value.withFloats f = value ↔ ∀ x ∈ value.floats, f x = x := by
  refine ⟨fun hsame => ?_, withFloats_eq_self⟩
  induction value using induct with
  | hnull | hbool | hint | hstr => exact nofun
  | hfloat x =>
      intro y hy
      rw [List.mem_singleton.1 hy]
      exact float.inj hsame
  | harr items ih =>
      rw [withFloats_arr] at hsame
      intro x hx
      obtain ⟨item, hmem, hx⟩ := mem_floatsOfItems.1 hx
      have hitems := List.map_inj_left.1 ((arr.inj hsame).trans (List.map_id items).symm)
      exact ih item hmem (hitems item hmem) x hx
  | hobj members ih =>
      rw [withFloats_obj] at hsame
      intro x hx
      obtain ⟨member, hmem, hx⟩ := mem_floatsOfMembers.1 hx
      have hmembers := List.map_inj_left.1 ((obj.inj hsame).trans (List.map_id members).symm)
      exact ih member hmem (congrArg Prod.snd (hmembers member hmem)) x hx

end AddressBook.Json
