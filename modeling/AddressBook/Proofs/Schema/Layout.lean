import AddressBook.Proofs.Schema.Loading
import AddressBook.Schema.Layout
/-!
# What is read of the numbers of a document

The layout of a valid document lists the fields with a sort key in its order and then the other ones as they come, and
the main attributes in the order of their own key. A key counts if it fits 64 signed bits: validation admits larger
numbers too, and a field that has one of them is loaded as if it had none. So a valid document is loaded without loss
exactly if its numbers fit.
-/

namespace AddressBook

/-! ### Sorting by keys that may be missing -/

namespace Schema.Layout

theorem keyLE_trans (a b c : Option Int64) (hab : keyLE a b = true) (hbc : keyLE b c = true) : keyLE a c = true := by
  cases a <;> cases b <;> cases c <;> simp_all only [keyLE, decide_eq_true_eq, reduceCtorEq]
  exact Int64.le_trans hab hbc

theorem keyLE_total (a b : Option Int64) : (keyLE a b || keyLE b a) = true := by
  cases a <;> cases b <;> simp [keyLE, Int64.le_total]

variable {α : Type} {key : α → Option Int64} {elements : List α}

/-- In a list that is sorted by keys the elements without a key come last. -/
theorem eq_filter_append (hsorted : elements.Pairwise fun a b => keyLE (key a) (key b) = true) :
    elements = (elements.filter fun a => (key a).isSome) ++ elements.filter fun a => (key a).isNone := by
  induction hsorted with
  | nil => rfl
  | @cons a rest hfirst _ ih =>
      cases hkey : key a with
      | some n => simpa [hkey] using ih
      | none =>
          have hrest : ∀ b ∈ rest, key b = none := by
            intro b hmem
            have hle := hfirst b hmem
            rw [hkey] at hle
            cases hb : key b with
            | none => rfl
            | some n => simp [hb, keyLE] at hle
          have hsome : (a :: rest).filter (fun b => (key b).isSome) = [] := by
            simpa [hkey] using hrest
          have hnone : (a :: rest).filter (fun b => (key b).isNone) = a :: rest := by
            simpa [hkey] using hrest
          rw [hsome, hnone, List.nil_append]

/-- Sorting by keys puts the elements with a key in order, and leaves the other ones as they come, behind them. -/
theorem mergeSort_keyLE (key : α → Option Int64) (elements : List α) :
    ∃ keyed : List α, keyed.Perm (elements.filter fun a => (key a).isSome) ∧
      (keyed.Pairwise fun a b => keyLE (key a) (key b) = true) ∧
      elements.mergeSort (fun a b => keyLE (key a) (key b)) = keyed ++ elements.filter fun a => (key a).isNone := by
  have htrans : ∀ a b c : α, keyLE (key a) (key b) = true → keyLE (key b) (key c) = true → keyLE (key a) (key c) = true :=
    fun a b c => keyLE_trans (key a) (key b) (key c)
  have htotal : ∀ a b : α, (keyLE (key a) (key b) || keyLE (key b) (key a)) = true := fun a b => keyLE_total (key a) (key b)
  have hsorted := List.pairwise_mergeSort htrans htotal elements
  have hperm := List.mergeSort_perm elements fun a b => keyLE (key a) (key b)
  generalize hresult : elements.mergeSort (fun a b => keyLE (key a) (key b)) = sorted at hsorted hperm ⊢
  have hunkeyed : (elements.filter fun a => (key a).isNone) = sorted.filter fun a => (key a).isNone := by
    -- the sort is stable, so the elements without a key are still in their order
    have hkept : (elements.filter fun a => (key a).isNone).Sublist sorted := by
      rw [← hresult]
      refine List.sublist_mergeSort htrans htotal ?_ List.filter_sublist
      refine List.pairwise_of_forall_mem_list fun a ha b hb => ?_
      rw [Option.isNone_iff_eq_none.1 (List.mem_filter.1 ha).2, Option.isNone_iff_eq_none.1 (List.mem_filter.1 hb).2]
      rfl
    have hfiltered := hkept.filter fun a => (key a).isNone
    simp only [List.filter_filter, Bool.and_self] at hfiltered
    exact hfiltered.eq_of_length (hperm.filter _).length_eq.symm
  refine ⟨sorted.filter fun a => (key a).isSome, hperm.filter _, hsorted.filter _, ?_⟩
  rw [hunkeyed]
  exact eq_filter_append hsorted

end Schema.Layout

namespace Document

variable {all : List Entry} {document : Json} {schema : Schema}

/-! ### The order of fields -/

/-- The whole number that a document has at a parameter of a field. -/
def Entry.integer? (entry : Entry) (key : String) : Option Int :=
  match param? entry.params key with
  | some (.int n) => some n
  | _ => none

/-- The entries that have a number, in its order. -/
structure OrderedBy (number : Entry → Option Int) (all sorted : List Entry) : Prop where
  perm : sorted.Perm (all.filter fun entry => (number entry).isSome)
  increasing : sorted.Pairwise fun entry other => ∀ m n, number entry = some m → number other = some n → m < n

/-- A layout has the entries in the order of their numbers: those without a sort key last, the main attributes only. -/
structure LaidOut (number : String → Entry → Option Int) (all : List Entry) (layout : Schema.Layout) : Prop where
  attributes : ∃ sorted, OrderedBy (number Parameter.sortKey) all sorted ∧ layout.attributes =
    (sorted ++ all.filter fun entry => (number Parameter.sortKey entry).isNone).map Entry.name
  mainAttributes : ∃ sorted, OrderedBy (number Parameter.mainAttribute) all sorted ∧
    layout.mainAttributes = sorted.map Entry.name

theorem Entry.DifferAt.symm {key : String} {entry other : Entry} (hdiffer : entry.DifferAt key other) :
    other.DifferAt key entry := fun m n hm hn => (hdiffer n m hn hm).symm

theorem map_filter_of_mem {α β : Type} {f : α → β} {p : α → Bool} {q : β → Bool} {list : List α}
    (hsame : ∀ a ∈ list, p a = q (f a)) : (list.filter p).map f = (list.map f).filter q := by
  rw [List.filter_map, List.filter_congr hsame]
  rfl

section Ordered

variable {pairs : List (Entry × Field)} {number : Field → Option Int64} {key : String}

theorem exists_orderedBy (hreads : ∀ pair ∈ pairs, pair.1.Reads pair.2)
    (hread : ∀ entry field, Entry.Reads entry field → (number field).map Int64.toInt = entry.number? key)
    (hdiffer : (pairs.map Prod.fst).Pairwise (Entry.DifferAt key)) :
    ∃ sorted, OrderedBy (Entry.number? · key) (pairs.map Prod.fst) sorted ∧
      ((pairs.map Prod.snd).mergeSort fun a b => Schema.Layout.keyLE (number a) (number b)).map Field.name =
        (sorted ++ (pairs.map Prod.fst).filter fun entry => (entry.number? key).isNone).map Entry.name := by
  obtain ⟨keyed, hperm, hordered, hsorted⟩ := Schema.Layout.mergeSort_keyLE (fun pair : Entry × Field => number pair.2) pairs
  have hnumber : ∀ pair ∈ pairs, pair.1.number? key = (number pair.2).map Int64.toInt :=
    fun pair hmem => (hread _ _ (hreads pair hmem)).symm
  have hkeyed : ∀ pair ∈ keyed, pair ∈ pairs := fun pair hmem => List.mem_of_mem_filter (hperm.subset hmem)
  refine ⟨keyed.map Prod.fst, ⟨?perm, ?increasing⟩, ?names⟩
  case perm =>
    rw [← map_filter_of_mem fun pair hmem => by rw [hnumber pair hmem, Option.isSome_map]]
    exact hperm.map Prod.fst
  case increasing =>
    have hdistinct : keyed.Pairwise fun a b => a.1.DifferAt key b.1 :=
      (hperm.pairwise_iff Entry.DifferAt.symm).2 ((List.pairwise_map.1 hdiffer).filter _)
    rw [List.pairwise_map]
    refine (hordered.and hdistinct).imp_of_mem fun {a b} ha hb hboth m n hm hn => ?_
    obtain ⟨hle, hne⟩ := hboth
    obtain ⟨x, hx, rfl⟩ := Option.map_eq_some_iff.1 (hnumber a (hkeyed a ha) ▸ hm)
    obtain ⟨y, hy, rfl⟩ := Option.map_eq_some_iff.1 (hnumber b (hkeyed b hb) ▸ hn)
    rw [hx, hy, Schema.Layout.keyLE, decide_eq_true_eq] at hle
    exact Int64.lt_iff_toInt_lt.1 (Int64.lt_of_le_of_ne hle (hne.ne_of_number? hm hn))
  case names =>
    have hnames : ∀ list : List (Entry × Field), (∀ pair ∈ list, pair ∈ pairs) →
        (list.map Prod.snd).map Field.name = (list.map Prod.fst).map Entry.name := by
      intro list hsub
      rw [List.map_map, List.map_map]
      exact List.map_congr_left fun pair hmem => (hreads pair (hsub pair hmem)).name
    -- sorting the fields is sorting the pairs, of which the entries are forgotten
    have hsort : (pairs.map Prod.snd).mergeSort (fun a b => Schema.Layout.keyLE (number a) (number b)) =
        (pairs.mergeSort fun a b => Schema.Layout.keyLE (number a.2) (number b.2)).map Prod.snd :=
      (List.map_mergeSort (f := Prod.snd) fun _ _ _ _ => rfl).symm
    have hfilter : (pairs.filter fun pair => (number pair.2).isNone).map Prod.fst =
        (pairs.map Prod.fst).filter fun entry => (entry.number? key).isNone :=
      map_filter_of_mem fun pair hmem => by rw [hnumber pair hmem, Option.isNone_map]
    rw [hsort, hsorted, hnames _ ?_, List.map_append, hfilter]
    intro pair hmem
    exact (List.mem_append.1 hmem).elim (hkeyed pair) List.mem_of_mem_filter

theorem exists_orderedBy_filter (hreads : ∀ pair ∈ pairs, pair.1.Reads pair.2)
    (hread : ∀ entry field, Entry.Reads entry field → (number field).map Int64.toInt = entry.number? key)
    (hdiffer : (pairs.map Prod.fst).Pairwise (Entry.DifferAt key)) :
    ∃ sorted, OrderedBy (Entry.number? · key) (pairs.map Prod.fst) sorted ∧
      (((pairs.map Prod.snd).filter fun field => (number field).isSome).mergeSort
        fun a b => Schema.Layout.keyLE (number a) (number b)).map Field.name = sorted.map Entry.name := by
  have hentries : (pairs.filter fun pair => (number pair.2).isSome).map Prod.fst =
      (pairs.map Prod.fst).filter fun entry => (entry.number? key).isSome :=
    map_filter_of_mem fun pair hmem => by rw [← hread _ _ (hreads pair hmem), Option.isSome_map]
  have hothers : ∀ pair ∈ pairs.filter fun pair => (number pair.2).isSome, pair.1.Reads pair.2 :=
    fun pair hmem => hreads pair (List.mem_of_mem_filter hmem)
  obtain ⟨sorted, hordered, hnames⟩ := exists_orderedBy hothers hread (hentries ▸ hdiffer.filter _)
  rw [hentries] at hordered hnames
  refine ⟨sorted, ⟨?_, hordered.increasing⟩, ?_⟩
  · have hperm := hordered.perm
    simpa only [List.filter_filter, Bool.and_self] using hperm
  · have hnone : ((pairs.map Prod.fst).filter fun entry => (entry.number? key).isSome).filter
        (fun entry => (entry.number? key).isNone) = [] := by simp [List.filter_eq_nil_iff]
    rw [hnone, List.append_nil] at hnames
    rw [← hnames, List.filter_map]
    rfl

end Ordered

theorem Describes.laidOut (hdescribes : Describes document all schema) :
    LaidOut (fun key entry => entry.number? key) all schema.layout := by
  obtain ⟨pairs, rfl, hfields, hreads⟩ := hdescribes.exists_pairs
  obtain ⟨byKey, hbyKey, hattributes⟩ :=
    exists_orderedBy hreads (fun _ _ => Entry.Reads.sortKey) hdescribes.sound.sortKeys
  obtain ⟨byRank, hbyRank, hmainAttributes⟩ :=
    exists_orderedBy_filter hreads (fun _ _ => Entry.Reads.mainAttribute) hdescribes.sound.mainAttributes
  rw [hfields] at hattributes hmainAttributes
  exact ⟨⟨byKey, hbyKey, hattributes⟩, ⟨byRank, hbyRank, hmainAttributes⟩⟩

/-! ### Numbers that fit -/

theorem Entry.integer?_eq_some_iff {entry : Entry} {key : String} {n : Int} :
    entry.integer? key = some n ↔ Has entry.params key (.int n) := by
  rw [has_iff, integer?]
  split <;> simp_all

/-- The numbers of an entry fit 64 signed bits. -/
def Entry.Signed (entry : Entry) : Prop :=
  ∀ key ∈ [Parameter.mainAttribute, Parameter.sortKey], ∀ n, Has entry.params key (.int n) → Json.Signed n

/-- A field has the numbers of an entry, as it has its other parameters. -/
structure Entry.KeepsNumbers (entry : Entry) (field : Field) : Prop where
  mainAttribute : field.mainAttribute.map (fun n => Json.int n.toInt) = param? entry.params Parameter.mainAttribute
  sortKey : field.sortKey.map (fun n => Json.int n.toInt) = param? entry.params Parameter.sortKey

theorem Entry.map_int_integer? {entry : Entry} {key : String} (htyped : entry.Typed key .integer) :
    (entry.integer? key).map Json.int = param? entry.params key := by
  rw [integer?]
  cases hparam : param? entry.params key with
  | none => rfl
  | some value =>
      cases htyped value (has_iff.2 hparam)
      rfl

theorem Entry.number?_eq_integer?_iff {entry : Entry} {key : String} :
    entry.number? key = entry.integer? key ↔ ∀ n, Has entry.params key (.int n) → Json.Signed n := by
  constructor
  · intro hsame n hn
    exact (number?_eq_some_iff.1 (hsame.trans (integer?_eq_some_iff.2 hn))).2
  · intro hsigned
    refine Option.ext fun n => ?_
    rw [number?_eq_some_iff, integer?_eq_some_iff]
    exact ⟨And.left, fun hn => ⟨hn, hsigned n hn⟩⟩

theorem Entry.Reads.keepsNumbers_iff {entry : Entry} {field : Field} (hreads : entry.Reads field)
    (hsound : entry.Sound) : entry.KeepsNumbers field ↔ entry.Signed := by
  have hkeeps : ∀ {number : Option Int64} {key : String}, number.map Int64.toInt = entry.number? key →
      entry.Typed key .integer → (number.map (fun n => Json.int n.toInt) = param? entry.params key ↔
        ∀ n, Has entry.params key (.int n) → Json.Signed n) := by
    intro number key hnumber htyped
    rw [← number?_eq_integer?_iff, ← hnumber, ← map_int_integer? htyped]
    have hint : number.map (fun n => Json.int n.toInt) = (number.map Int64.toInt).map Json.int := (Option.map_map ..).symm
    rw [hint]
    exact (Option.map_injective fun _ _ => Json.int.inj).eq_iff
  have hmain := hkeeps hreads.mainAttribute hsound.mainAttribute
  have hsort := hkeeps hreads.sortKey hsound.sortKey
  rw [Entry.Signed, List.forall_mem_cons, List.forall_mem_singleton, ← hmain, ← hsort]
  exact ⟨fun h => ⟨h.mainAttribute, h.sortKey⟩, fun h => ⟨h.1, h.2⟩⟩

/-- What a schema has of the entries of a document: all parameters, and the order of the fields by all numbers. -/
structure Lossless (all : List Entry) (schema : Schema) : Prop where
  fields : List.Forall₂ (fun entry field => Entry.Reads entry field ∧ entry.KeepsNumbers field) all schema.fields
  layout : LaidOut (fun key entry => entry.integer? key) all schema.layout

theorem OrderedBy.congr {number other : Entry → Option Int} {sorted : List Entry}
    (hordered : OrderedBy number all sorted) (hsame : ∀ entry ∈ all, number entry = other entry) :
    OrderedBy other all sorted := by
  have hmem : ∀ entry ∈ sorted, number entry = other entry :=
    fun entry hmem => hsame entry (List.mem_of_mem_filter (hordered.perm.subset hmem))
  constructor
  · rw [← List.filter_congr fun entry hmem => congrArg Option.isSome (hsame entry hmem)]
    exact hordered.perm
  · refine hordered.increasing.imp_of_mem fun {a b} ha hb hlt => ?_
    rw [← hmem a ha, ← hmem b hb]
    exact hlt

theorem LaidOut.congr {number other : String → Entry → Option Int} {layout : Schema.Layout}
    (hlaidOut : LaidOut number all layout)
    (hsame : ∀ entry ∈ all, ∀ key ∈ [Parameter.mainAttribute, Parameter.sortKey], number key entry = other key entry) :
    LaidOut other all layout := by
  have hmain : ∀ entry ∈ all, number Parameter.mainAttribute entry = other Parameter.mainAttribute entry :=
    fun entry hmem => hsame entry hmem _ (.head _)
  have hsort : ∀ entry ∈ all, number Parameter.sortKey entry = other Parameter.sortKey entry :=
    fun entry hmem => hsame entry hmem _ (.tail _ (.head _))
  obtain ⟨byKey, hbyKey, hattributes⟩ := hlaidOut.attributes
  obtain ⟨byRank, hbyRank, hmainAttributes⟩ := hlaidOut.mainAttributes
  refine ⟨⟨byKey, hbyKey.congr hsort, ?_⟩, ⟨byRank, hbyRank.congr hmain, hmainAttributes⟩⟩
  rw [hattributes, List.filter_congr fun entry hmem => congrArg Option.isNone (hsort entry hmem)]

theorem keepsNumbers_iff_signed {fields : List Field} (hreads : List.Forall₂ Entry.Reads all fields)
    (hsound : ∀ entry ∈ all, entry.Sound) :
    List.Forall₂ (fun entry field => Entry.Reads entry field ∧ entry.KeepsNumbers field) all fields ↔
      ∀ entry ∈ all, entry.Signed := by
  induction hreads with
  | nil => simp
  | cons hfirst _ ih =>
      obtain ⟨hsoundFirst, hsoundRest⟩ := List.forall_mem_cons.1 hsound
      rw [List.forall₂_cons, ih hsoundRest, hfirst.keepsNumbers_iff hsoundFirst, List.forall_mem_cons,
        and_iff_right hfirst]

/-- A valid document loses nothing when it is loaded exactly if its numbers fit 64 signed bits. -/
theorem lossless_iff_signed (document : Json) (hvalid : validate document = .ok ()) :
    ∃ all schema, document = .obj (all.map Entry.member) ∧ Schema.ofNewDocument document = .ok schema ∧
      List.Forall₂ Entry.Reads all schema.fields ∧ LaidOut (fun key entry => entry.number? key) all schema.layout ∧
      (Lossless all schema ↔ ∀ entry ∈ all, entry.Signed) := by
  obtain ⟨all, schema, hdescribes⟩ := exists_describes hvalid
  refine ⟨all, schema, hdescribes.members, hdescribes.ofNewDocument hvalid, hdescribes.reads, hdescribes.laidOut, ?_⟩
  have hkeeps := keepsNumbers_iff_signed hdescribes.reads hdescribes.sound.fields
  constructor
  · exact fun hlossless => hkeeps.1 hlossless.fields
  · intro hsigned
    refine ⟨hkeeps.2 hsigned, hdescribes.laidOut.congr fun entry hmem key hkey => ?_⟩
    exact Entry.number?_eq_integer?_iff.2 (hsigned entry hmem key hkey)

theorem lossless_iff_signed_gallery :
    validate galleryDocument = .ok () ∧ ∃ all schema, galleryDocument = .obj (all.map Entry.member) ∧
      Schema.ofNewDocument galleryDocument = .ok schema ∧ Lossless all schema := by
  have hvalid : validate galleryDocument = .ok () := rfl
  obtain ⟨all, schema, hmembers, hloads, -, -, hlossless⟩ := lossless_iff_signed galleryDocument hvalid
  refine ⟨hvalid, all, schema, hmembers, hloads, hlossless.2 fun entry hmem key hkey => ?_⟩
  rw [← Entry.number?_eq_integer?_iff]
  have hentry : entry.member ∈ all.map Entry.member := List.mem_map_of_mem hmem
  rw [← Json.obj.inj hmembers] at hentry
  obtain ⟨name, params⟩ := entry
  simp only [Entry.member, List.mem_cons, Prod.mk.injEq, Json.obj.injEq, List.not_mem_nil, or_false] at hentry hkey
  obtain ⟨rfl, rfl⟩ | ⟨rfl, rfl⟩ := hentry <;> obtain rfl | rfl := hkey <;> decide

/-- A document whose field has numbers that need an unsigned type. -/
def rankedDocument : Json :=
  .obj [
    ("id", .obj [("type", .str "string"), ("primary_key", .bool true), ("required", .bool true)]),
    ("rank", .obj [("type", .str "string"), ("sort_key", .int Json.signedBound), ("main_attribute", .int Json.signedBound)])]

/-- A valid document whose one sort key and one main attribute are lost. -/
theorem layout_rankedDocument :
    validate rankedDocument = .ok () ∧ ∃ schema, Schema.ofNewDocument rankedDocument = .ok schema ∧
      schema.layout.attributes = ["id", "rank"] ∧ schema.layout.mainAttributes = [] := by
  refine ⟨rfl, _, rfl, ?_, ?_⟩
  -- no field has a number that counts, so both lists are sorted as they are
  · exact congrArg (List.map Field.name) (List.mergeSort_of_pairwise (by decide))
  · exact congrArg (List.map Field.name) (List.mergeSort_of_pairwise (by decide))

end Document

end AddressBook
