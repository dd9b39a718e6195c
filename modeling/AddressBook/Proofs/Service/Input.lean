import AddressBook.Proofs.Outcome
import AddressBook.Proofs.Store.Records
import AddressBook.Service.Input
/-!
# What a body can hold

A JSON body that is read is a value that a text can stand for, and it nests no deeper than the reader goes. The infos of
a contact are members of such a value, so under any id they make a sound record.
-/

namespace AddressBook.Input

open Http (Request)
open Json (depthLimit)

variable {limit : Nat} {request : Request}

theorem wellFormed_and_depth_le_of_json {value : Json} (hjson : json limit request = .ok value) :
    value.WellFormed ∧ value.depth ≤ depthLimit := by
  unfold json at hjson
  split at hjson
  · simp at hjson
  · split at hjson
    · simp at hjson
    · split at hjson
      · rename_i found rest hparse
        rw [← Except.ok.inj hjson]
        exact Json.wellFormed_and_depth_le_of_parseStart? hparse
      · simp at hjson

theorem nodup_of_json {members : Members} (hbody : json limit request = .ok (.obj members)) : members.keys.Nodup :=
  (wellFormed_and_depth_le_of_json hbody).1.nodup_keys

theorem infos_of_json {members : Members} (hbody : json limit request = .ok (.obj members)) {member : String × Json}
    (hmem : member ∈ members) (hname : member.1 ≠ idField) :
    Input.infos limit request = .ok (members.swapErase idField) := by
  have hinfos : (members.swapErase idField).isEmpty = false :=
    List.isEmpty_eq_false_iff.2 (List.ne_nil_of_mem (Assoc.mem_swapErase_of_ne hmem hname))
  refine Except.bind_eq_ok_iff.2 ⟨_, hbody, ?_⟩
  rw [infosOf, hinfos]
  rfl

/-- The infos of a contact are the members of the body other than the id. -/
theorem exists_json_of_infos {infos : Members} (hinfos : Input.infos limit request = .ok infos) :
    ∃ members, json limit request = .ok (.obj members) ∧ infos = Assoc.swapErase members idField := by
  obtain ⟨value, hjson, hvalue⟩ := Except.bind_eq_ok_iff.1 hinfos
  unfold infosOf at hvalue
  split at hvalue
  · rename_i members
    dsimp only at hvalue
    split at hvalue
    · simp at hvalue
    · exact ⟨members, hjson, (Except.ok.inj hvalue).symm⟩
  · simp at hvalue

theorem infos_ne_nil {infos : Members} (hinfos : Input.infos limit request = .ok infos) : infos ≠ [] := by
  obtain ⟨value, -, hvalue⟩ := Except.bind_eq_ok_iff.1 hinfos
  unfold infosOf at hvalue
  split at hvalue
  · dsimp only at hvalue
    split at hvalue
    · nomatch hvalue
    · rename_i hmembers
      obtain rfl := Except.ok.inj hvalue
      exact fun hnil => hmembers (List.isEmpty_iff.2 hnil)
  · nomatch hvalue

theorem sound_of_infos {infos : Members} (hinfos : Input.infos limit request = .ok infos) (id : Nat)
    (inserted : String) : Record.Sound { id, infos, inserted } := by
  obtain ⟨members, hjson, rfl⟩ := exists_json_of_infos hinfos
  obtain ⟨hwell, -⟩ := wellFormed_and_depth_le_of_json hjson
  cases hwell with
  | obj hnodup hmembers =>
      exact ⟨.obj (Assoc.nodup_keys_swapErase hnodup idField) fun member hmem =>
        hmembers member (Assoc.mem_swapErase hmem), Assoc.not_mem_keys_swapErase hnodup idField⟩

end AddressBook.Input
