import AddressBook.Http.Multipart
import AddressBook.Proofs.Text.Utf8
/-!
# Forms as they are sent

A form is sent as text that does not matter, the boundary, and for each part its headers, an empty line, its content and the
boundary again, which dashes follow at the end. What is read of it are the parts that were sent, with their names and their
contents, whatever other headers they have. A part's content may hold anything but a line break with the boundary after it.
-/

namespace AddressBook.Http.Multipart

open Text (Bytes)
open Text.Utf8 (encodeString)

/-! ### Forms -/

def escaped (b : UInt8) : Bytes := if b = 0x22 then [0x5C, 0x22] else [b]

/-- A text in quotes, with a backslash before every quote in it. -/
def quoted (text : String) : Bytes := 0x22 :: (encodeString text).flatMap escaped ++ [0x22]

/-- A text can stand in quotes: it has no control character but tabs, and no backslash stands before the closing quote. -/
structure Quotable (text : String) : Prop where
  value : ∀ b ∈ encodeString text, isValueByte b = true
  closes : (encodeString text).getLast? ≠ some 0x5C

/-- A line of the headers. -/
structure HeaderLine where
  name : Bytes
  value : Bytes

def HeaderLine.bytes (line : HeaderLine) : Bytes := line.name ++ 0x3A :: line.value ++ lineBreak

/-- What is read of a line: the name in lower case, and the value without the white space around it. -/
def HeaderLine.header (line : HeaderLine) : Header :=
  (String.ofList (Text.lowerAscii (asciiText line.name)),
    ((line.value.dropWhile isPadding).reverse.dropWhile isPadding).reverse)

structure HeaderLine.WellFormed (line : HeaderLine) : Prop where
  name_ne : line.name ≠ []
  name : ∀ b ∈ line.name, isNameByte b = true
  value : ∀ b ∈ line.value, isValueByte b = true

/-- A part of a form, with the lines of other headers before and after the one that names it. -/
structure SentPart where
  name : String
  fileName : Option String := none
  content : Bytes
  linesBefore : List HeaderLine := []
  linesAfter : List HeaderLine := []

namespace SentPart

/-- The name of a part and that of its file, if it has one. -/
def names (part : SentPart) : Bytes :=
  encodeString "form-data; name=" ++ quoted part.name ++
    part.fileName.elim [] fun fileName => encodeString "; filename=" ++ quoted fileName

def disposition (part : SentPart) : HeaderLine where
  name := encodeString "Content-Disposition"
  value := 0x20 :: part.names

def lines (part : SentPart) : List HeaderLine := part.linesBefore ++ part.disposition :: part.linesAfter

def bytes (part : SentPart) : Bytes := part.lines.flatMap HeaderLine.bytes ++ lineBreak ++ part.content

end SentPart

structure Form where
  boundary : String
  preamble : Option Bytes := none
  parts : List SentPart
  epilogue : Bytes := []

namespace Form

def separator (boundary : String) : Bytes := dashes ++ encodeString boundary

/-- What follows a boundary: a part and another boundary, or the end of the form. -/
def bytesAfter (boundary : String) (epilogue : Bytes) : List SentPart → Bytes
  | [] => dashes ++ epilogue
  | part :: rest => lineBreak ++ part.bytes ++ (lineBreak ++ separator boundary) ++ bytesAfter boundary epilogue rest

def bytes (form : Form) : Bytes :=
  (match form.preamble with
    | none => []
    | some text => text ++ lineBreak) ++
  separator form.boundary ++ bytesAfter form.boundary form.epilogue form.parts

end Form

structure SentPart.WellFormed (boundary : String) (part : SentPart) : Prop where
  name : Quotable part.name
  fileName : ∀ fileName ∈ part.fileName, Quotable fileName
  others : ∀ line ∈ part.linesBefore ++ part.linesAfter, line.WellFormed ∧ line.header.1 ≠ "content-disposition"
  count : part.lines.length ≤ headerLimit
  content : ¬ lineBreak ++ Form.separator boundary <:+: part.content

structure Form.WellFormed (form : Form) : Prop where
  boundary : 0x0D ∉ encodeString form.boundary
  preamble : ∀ text ∈ form.preamble, ¬ Form.separator form.boundary <:+: text
  parts : ∀ part ∈ form.parts, part.WellFormed form.boundary

/-! ### First places -/

variable {pattern front back before after rest bytes : Bytes} {b : UInt8}

theorem cutAt?_self (pattern after : Bytes) : cutAt? pattern (pattern ++ after) = some ([], after) := by
  cases pattern with
  | nil => cases after <;> rfl
  | cons b pattern =>
      rw [List.cons_append, cutAt?, if_pos, ← List.cons_append, List.drop_left]
      exact List.isPrefixOf_iff_prefix.2 (List.prefix_append (b :: pattern) after)

theorem cutAt?_cons (hnot : ¬ pattern <+: b :: rest) :
    cutAt? pattern (b :: rest) = (cutAt? pattern rest).map fun (before, after) => (b :: before, after) := by
  rw [cutAt?, if_neg (mt List.isPrefixOf_iff_prefix.1 hnot)]

theorem cutAt?_append_of_not_mem {first : UInt8} {pattern : Bytes} (hfirst : first ∉ front) (back : Bytes) :
    cutAt? (first :: pattern) (front ++ back) =
      (cutAt? (first :: pattern) back).map fun (before, after) => (front ++ before, after) := by
  induction front with
  | nil => simp
  | cons b front ih =>
      obtain ⟨hb, hfront⟩ := not_or.1 (mt List.mem_cons.2 hfirst)
      rw [List.cons_append, cutAt?_cons fun hprefix => hb (List.cons_prefix_cons.1 hprefix).1, ih hfront, Option.map_map]
      rfl

/-- Where a pattern is not in a text, and only begins with the byte that stands behind it, it does not begin in the text. -/
theorem cutAt?_append_of_not_infix {first : UInt8} (hnot : ¬ pattern <:+: front) (hfirst : first ∉ pattern.tail) (back : Bytes) :
    cutAt? pattern (front ++ first :: back) =
      (cutAt? pattern (first :: back)).map fun (before, after) => (front ++ before, after) := by
  induction front with
  | nil => simp
  | cons b front ih =>
      have hhere : ¬ pattern <+: b :: (front ++ first :: back) := by
        intro hprefix
        rcases List.prefix_or_prefix_of_prefix hprefix (List.prefix_append (b :: front) (first :: back)) with hinside | hacross
        · exact hnot hinside.isInfix
        · obtain ⟨own, rfl⟩ := hacross
          -- the rest of the pattern begins with the byte behind the text, if there is a rest
          rw [← List.cons_append, List.prefix_append_right_inj] at hprefix
          cases own with
          | nil =>
              rw [List.append_nil] at hnot
              exact hnot List.infix_rfl
          | cons c own =>
              rw [(List.cons_prefix_cons.1 hprefix).1] at hfirst
              exact hfirst (List.mem_append_right front List.mem_cons_self)
      rw [List.cons_append, cutAt?_cons hhere, ih fun hinfix => hnot (List.infix_cons hinfix), Option.map_map]
      rfl

theorem cutAt?_of_not_mem {first : UInt8} {pattern : Bytes} (hfirst : first ∉ front) (rest : Bytes) :
    cutAt? (first :: pattern) (front ++ (first :: pattern ++ rest)) = some (front, rest) := by
  rw [cutAt?_append_of_not_mem hfirst, cutAt?_self, Option.map_some]
  exact congrArg (fun before => some (before, rest)) (List.append_nil front)

theorem cutAt?_of_not_infix {first : UInt8} {pattern : Bytes} (hnot : ¬ first :: pattern <:+: front) (hfirst : first ∉ pattern)
    (rest : Bytes) : cutAt? (first :: pattern) (front ++ (first :: pattern ++ rest)) = some (front, rest) := by
  rw [List.cons_append, cutAt?_append_of_not_infix hnot hfirst, ← List.cons_append, cutAt?_self, Option.map_some]
  exact congrArg (fun before => some (before, rest)) (List.append_nil front)

/-! ### Lines of headers -/

theorem dropWhile_append_cons {p : UInt8 → Bool} (hb : p b = false) (front rest : Bytes) :
    (front ++ b :: rest).dropWhile p = front.dropWhile p ++ b :: rest := by
  rw [List.dropWhile_append]
  split
  · rename_i hempty
    rw [List.isEmpty_iff.1 hempty, List.dropWhile_cons_of_neg (by rw [hb]; exact Bool.false_ne_true)]
    rfl
  · rfl

theorem takeWhile_append_cons {p : UInt8 → Bool} (hfront : ∀ c ∈ front, p c = true) (hb : p b = false) (rest : Bytes) :
    (front ++ b :: rest).takeWhile p = front := by
  rw [List.takeWhile_append_of_pos hfront, List.takeWhile_cons_of_neg (by rw [hb]; exact Bool.false_ne_true), List.append_nil]

theorem readHeader_line {line : HeaderLine} (hline : line.WellFormed) (rest : Bytes) :
    readHeader (line.bytes ++ rest) = some (line.header, rest) := by
  have hbytes : line.bytes ++ rest = line.name ++ 0x3A :: (line.value ++ 0x0D :: 0x0A :: rest) := by
    simp [HeaderLine.bytes, lineBreak]
  have hname : (line.bytes ++ rest).takeWhile isNameByte = line.name := by
    rw [hbytes]
    exact takeWhile_append_cons hline.name (by decide) _
  have hafter : (line.bytes ++ rest).dropWhile isNameByte = 0x3A :: (line.value ++ 0x0D :: 0x0A :: rest) := by
    rw [hbytes, List.dropWhile_append_of_pos hline.name, List.dropWhile_cons_of_neg (by decide)]
  have hvalue : ∀ c ∈ line.value.dropWhile isPadding, isValueByte c = true :=
    fun c hc => hline.value c ((List.dropWhile_sublist _).subset hc)
  obtain ⟨first, name, hcons⟩ := List.exists_cons_of_ne_nil hline.name_ne
  rw [readHeader, hname, hafter, HeaderLine.header, hcons]
  change (afterLine? (((line.value ++ 0x0D :: 0x0A :: rest).dropWhile isPadding).dropWhile isValueByte)).map (fun rest' =>
    ((_, ((((line.value ++ 0x0D :: 0x0A :: rest).dropWhile isPadding).takeWhile isValueByte).reverse.dropWhile
      isPadding).reverse), rest')) = _
  rw [dropWhile_append_cons (by decide), takeWhile_append_cons hvalue (by decide), List.dropWhile_append_of_pos hvalue,
    List.dropWhile_cons_of_neg (by decide)]
  rfl

theorem afterLine?_line {line : HeaderLine} (hline : line.WellFormed) (rest : Bytes) : afterLine? (line.bytes ++ rest) = none := by
  obtain ⟨first, name, hcons⟩ := List.exists_cons_of_ne_nil hline.name_ne
  have hfirst : isNameByte first = true := hline.name first (hcons ▸ List.mem_cons_self)
  rw [HeaderLine.bytes, hcons]
  unfold afterLine?
  split
  · rename_i heq
    rw [(List.cons.inj heq).1] at hfirst
    exact absurd hfirst (by decide)
  · rename_i heq
    rw [(List.cons.inj heq).1] at hfirst
    exact absurd hfirst (by decide)
  · rfl

theorem readHeaders_lines {lines : List HeaderLine} (hlines : ∀ line ∈ lines, line.WellFormed) {limit : Nat}
    (hcount : lines.length ≤ limit) (rest : Bytes) :
    readHeaders limit (lines.flatMap HeaderLine.bytes ++ lineBreak ++ rest) = some (lines.map HeaderLine.header) := by
  induction lines generalizing limit with
  | nil =>
      rw [readHeaders.eq_def]
      rfl
  | cons line lines ih =>
      obtain ⟨hline, hothers⟩ := List.forall_mem_cons.1 hlines
      obtain ⟨limit, rfl⟩ := Nat.exists_eq_add_one_of_ne_zero (Nat.ne_of_gt (Nat.lt_of_lt_of_le (Nat.succ_pos _) hcount))
      rw [List.flatMap_cons, List.append_assoc, List.append_assoc, readHeaders.eq_def]
      dsimp only
      rw [afterLine?_line hline]
      dsimp only
      rw [readHeader_line hline, ← List.append_assoc]
      change ((readHeaders limit _).bind fun others => some (line.header :: others)) = _
      rw [ih hothers (Nat.le_of_succ_le_succ hcount)]
      rfl

theorem cr_not_mem_line {line : HeaderLine} (hline : line.WellFormed) : 0x0D ∉ line.name ++ 0x3A :: line.value := by
  rw [List.mem_append, List.mem_cons, not_or, not_or]
  refine ⟨fun hmem => absurd (hline.name _ hmem) (by decide), by decide, fun hmem => absurd (hline.value _ hmem) (by decide)⟩

theorem cutAt?_line {line : HeaderLine} (hline : line.WellFormed) (back : Bytes) :
    cutAt? (lineBreak ++ lineBreak) (line.bytes ++ back) =
      (cutAt? (lineBreak ++ lineBreak) (lineBreak ++ back)).map fun (before, after) =>
        (line.name ++ 0x3A :: line.value ++ before, after) := by
  rw [HeaderLine.bytes, List.append_assoc]
  exact cutAt?_append_of_not_mem (cr_not_mem_line hline) _

/-- A line of headers is not empty, so there is no empty line between it and the one before it. -/
theorem cutAt?_lineBreak_line {line : HeaderLine} (hline : line.WellFormed) (back : Bytes) :
    cutAt? (lineBreak ++ lineBreak) (lineBreak ++ (line.bytes ++ back)) =
      (cutAt? (lineBreak ++ lineBreak) (line.bytes ++ back)).map fun (before, after) => (lineBreak ++ before, after) := by
  obtain ⟨first, name, hcons⟩ := List.exists_cons_of_ne_nil hline.name_ne
  have hfirst : isNameByte first = true := hline.name first (hcons ▸ List.mem_cons_self)
  have hbytes : ∃ tail, line.bytes ++ back = first :: tail := ⟨_, by rw [HeaderLine.bytes, hcons]; rfl⟩
  obtain ⟨tail, htail⟩ := hbytes
  have hempty : ¬ lineBreak ++ lineBreak <+: 0x0D :: 0x0A :: first :: tail := by
    intro hprefix
    have hcr := (List.cons_prefix_cons.1 (List.cons_prefix_cons.1 (List.cons_prefix_cons.1 hprefix).2).2).1
    rw [← hcr] at hfirst
    exact absurd hfirst (by decide)
  have hfeed : ¬ lineBreak ++ lineBreak <+: 0x0A :: first :: tail :=
    fun hprefix => absurd (List.cons_prefix_cons.1 hprefix).1 (by decide)
  rw [htail]
  change cutAt? _ (0x0D :: 0x0A :: first :: tail) = _
  rw [cutAt?_cons hempty, cutAt?_cons hfeed, Option.map_map]
  rfl

/-- The first empty line is the one behind the lines. -/
theorem cutAt?_lines {line : HeaderLine} {lines : List HeaderLine} (hline : line.WellFormed)
    (hlines : ∀ line ∈ lines, line.WellFormed) (rest : Bytes) :
    ∃ head, cutAt? (lineBreak ++ lineBreak) ((line :: lines).flatMap HeaderLine.bytes ++ lineBreak ++ rest) = some (head, rest) ∧
      head ++ lineBreak = (line :: lines).flatMap HeaderLine.bytes := by
  induction lines generalizing line with
  | nil =>
      refine ⟨line.name ++ 0x3A :: line.value, ?_, ?_⟩
      · rw [List.flatMap_cons, List.flatMap_nil, List.append_nil, List.append_assoc, cutAt?_line hline, ← List.append_assoc,
          cutAt?_self]
        simp
      · rw [List.flatMap_cons, List.flatMap_nil, List.append_nil]
        rfl
  | cons second lines ih =>
      obtain ⟨hsecond, hothers⟩ := List.forall_mem_cons.1 hlines
      obtain ⟨head, hcut, hhead⟩ := ih hsecond hothers
      have hbytes : (line :: second :: lines).flatMap HeaderLine.bytes ++ lineBreak ++ rest =
          line.bytes ++ ((second :: lines).flatMap HeaderLine.bytes ++ lineBreak ++ rest) := by simp
      have hrest : (second :: lines).flatMap HeaderLine.bytes ++ lineBreak ++ rest =
          second.bytes ++ (lines.flatMap HeaderLine.bytes ++ lineBreak ++ rest) := by simp
      refine ⟨line.name ++ 0x3A :: line.value ++ (lineBreak ++ head), ?_, ?_⟩
      · rw [hbytes, cutAt?_line hline, hrest, cutAt?_lineBreak_line hsecond, ← hrest, hcut]
        rfl
      · rw [List.flatMap_cons, ← hhead, HeaderLine.bytes]
        simp

/-! ### Names and file names -/

theorem readQuoted_cons (hb : b ≠ 0x22) (hnext : b = 0x5C → rest.head? ≠ some 0x22) :
    readQuoted (b :: rest) = (readQuoted rest).map (b :: ·) := by
  rw [readQuoted.eq_def]
  split
  · rename_i heq
    nomatch heq
  · rename_i heq
    exact absurd (List.cons.inj heq).1 hb
  · rename_i heq
    obtain ⟨rfl, rfl⟩ := List.cons.inj heq
    exact absurd rfl (hnext rfl)
  · rename_i heq
    obtain ⟨rfl, rfl⟩ := List.cons.inj heq
    rfl

theorem head?_escaped (bytes rest : Bytes) (hbytes : bytes ≠ []) : (bytes.flatMap escaped ++ rest).head? ≠ some 0x22 := by
  obtain ⟨b, bytes, rfl⟩ := List.exists_cons_of_ne_nil hbytes
  rw [List.flatMap_cons, escaped]
  split
  · exact fun heq => absurd (Option.some.inj heq) (by decide)
  · rename_i hb
    exact fun heq => hb (Option.some.inj heq)

theorem readQuoted_escaped (hlast : bytes.getLast? ≠ some 0x5C) (rest : Bytes) :
    readQuoted (bytes.flatMap escaped ++ 0x22 :: rest) = some bytes := by
  induction bytes with
  | nil => rfl
  | cons b bytes ih =>
      have hrest : bytes.getLast? ≠ some 0x5C := by
        intro hb
        rw [List.getLast?_cons, hb] at hlast
        exact hlast rfl
      rw [List.flatMap_cons, List.append_assoc, escaped]
      by_cases hquote : b = 0x22
      · subst hquote
        rw [if_pos rfl]
        change (readQuoted (bytes.flatMap escaped ++ 0x22 :: rest)).map (0x22 :: ·) = _
        rw [ih hrest]
        rfl
      · -- a backslash is not the last byte, so what follows it is not the closing quote
        have hnext : b = 0x5C → (bytes.flatMap escaped ++ 0x22 :: rest).head? ≠ some 0x22 := by
          rintro rfl
          refine head?_escaped bytes _ ?_
          rintro rfl
          exact hlast rfl
        rw [if_neg hquote, List.singleton_append, readQuoted_cons hquote hnext, ih hrest]
        rfl

/-- The value of an attribute in quotes, at the first place where the name of the attribute stands. -/
theorem attribute?_quoted {name : Bytes} {text : String} (htext : Quotable text)
    (hcut : cutAt? name bytes = some (before, 0x3D :: quoted text ++ after))
    (hstart : (before.getLast?.all fun b => isSpace b || b == 0x3B) = true) (fuel : Nat) :
    attribute? name (fuel + 1) bytes = some (encodeString text) := by
  rw [attribute?, hcut]
  dsimp only
  rw [if_pos hstart]
  change attributeValue ((quoted text ++ after).dropWhile isSpace) = _
  change readQuoted ((encodeString text).flatMap escaped ++ [0x22] ++ after) = _
  rw [List.append_assoc]
  exact readQuoted_escaped htext.closes after

namespace SentPart

variable {part : SentPart} {boundary : String}

theorem header_disposition (part : SentPart) : part.disposition.header = ("content-disposition", part.names) := by
  have hname : String.ofList (Text.lowerAscii (asciiText (encodeString "Content-Disposition"))) = "content-disposition" := by
    decide +kernel
  have hstart : part.disposition.value.dropWhile isPadding = part.names := rfl
  have hquoted : ∀ text, ∃ front, quoted text = front ++ [0x22] := fun text => ⟨_, rfl⟩
  have hend : ∃ front, part.names = front ++ [0x22] := by
    rw [names]
    cases part.fileName with
    | none =>
        obtain ⟨front, hfront⟩ := hquoted part.name
        exact ⟨_, by rw [Option.elim_none, hfront, List.append_nil, ← List.append_assoc]⟩
    | some fileName =>
        obtain ⟨front, hfront⟩ := hquoted fileName
        exact ⟨_, by rw [Option.elim_some, hfront, ← List.append_assoc, ← List.append_assoc]⟩
  obtain ⟨front, hfront⟩ := hend
  rw [HeaderLine.header, hstart, hfront, List.reverse_concat, List.dropWhile_cons_of_neg (by decide), List.reverse_cons,
    List.reverse_reverse]
  exact congrArg (·, _) hname

theorem value_quoted {text : String} (htext : Quotable text) : ∀ b ∈ quoted text, isValueByte b = true := by
  intro b hb
  rcases List.mem_append.1 hb with hb | hb
  · rcases List.mem_cons.1 hb with rfl | hb
    · decide
    · obtain ⟨own, hown, hb⟩ := List.mem_flatMap.1 hb
      rw [escaped] at hb
      split at hb
      · rcases List.mem_cons.1 hb with rfl | hb
        · decide
        · rw [List.mem_singleton.1 hb]
          decide
      · rw [List.mem_singleton.1 hb]
        exact htext.value own hown
  · rw [List.mem_singleton.1 hb]
    decide

namespace WellFormed

variable (hpart : part.WellFormed boundary)

include hpart

theorem disposition : part.disposition.WellFormed where
  name_ne := by
    change encodeString "Content-Disposition" ≠ []
    decide +kernel
  name := by
    change ∀ b ∈ encodeString "Content-Disposition", isNameByte b = true
    decide +kernel
  value := by
    change ∀ b ∈ 0x20 :: part.names, isValueByte b = true
    rw [List.forall_mem_cons, names, List.forall_mem_append, List.forall_mem_append]
    refine ⟨by decide, ⟨by decide +kernel, value_quoted hpart.name⟩, ?_⟩
    cases hfile : part.fileName with
    | none => exact List.forall_mem_nil _
    | some fileName =>
        rw [Option.elim_some, List.forall_mem_append]
        exact ⟨by decide +kernel, value_quoted (hpart.fileName fileName hfile)⟩

theorem lines : ∀ line ∈ part.lines, line.WellFormed := by
  intro line hline
  rcases List.mem_append.1 hline with hbefore | hline
  · exact (hpart.others line (List.mem_append_left _ hbefore)).1
  · rcases List.mem_cons.1 hline with rfl | hafter
    · exact hpart.disposition
    · exact (hpart.others line (List.mem_append_right _ hafter)).1

theorem lookup : (part.lines.map HeaderLine.header).reverse.lookup "content-disposition" = some part.names := by
  rw [List.lookup_eq_some_iff, SentPart.lines, List.map_append, List.map_cons, header_disposition, List.reverse_append,
    List.reverse_cons, List.append_assoc]
  refine ⟨_, _, rfl, fun header hheader => ?_⟩
  obtain ⟨line, hline, rfl⟩ := List.mem_map.1 (List.mem_reverse.1 hheader)
  exact bne_iff_ne.2 (hpart.others line (List.mem_append_right _ hline)).2.symm

theorem read_attribute {name text : String} (before after : Bytes) (htext : Quotable text)
    (hcut : cutAt? (encodeString name) part.names = some (before, 0x3D :: quoted text ++ after))
    (hstart : (before.getLast?.all fun b => isSpace b || b == 0x3B) = true) :
    dispositionText? (part.lines.map HeaderLine.header) name = some text := by
  have hvalue : attribute? (encodeString name) part.names.length part.names = some (encodeString text) :=
    attribute?_quoted htext hcut hstart _
  rw [dispositionText?, hpart.lookup]
  change ((attribute? _ _ part.names).bind fun value => (Text.Utf8.decode? value).bind fun text => some (String.ofList text)) = _
  rw [hvalue]
  change ((Text.Utf8.decode? (encodeString text)).bind fun text => some (String.ofList text)) = _
  rw [Text.Utf8.decode?_encodeString]
  exact congrArg some String.ofList_toList

theorem read_name : dispositionText? (part.lines.map HeaderLine.header) "name" = some part.name := by
  obtain ⟨after, hnames⟩ : ∃ after, part.names =
      encodeString "form-data; " ++ (encodeString "name" ++ (0x3D :: quoted part.name ++ after)) :=
    ⟨_, by rw [names, ← List.append_assoc, ← List.append_assoc]; rfl⟩
  refine hpart.read_attribute (encodeString "form-data; ") after hpart.name ?_ (by decide +kernel)
  rw [hnames]
  refine cutAt?_of_not_mem ?_ _
  decide +kernel

theorem read_fileName (hname : part.name = "file") :
    dispositionText? (part.lines.map HeaderLine.header) "filename" = part.fileName := by
  cases hfile : part.fileName with
  | none =>
      have hnone : attribute? (encodeString "filename") part.names.length part.names = none := by
        rw [names, hname, hfile]
        decide +kernel
      rw [dispositionText?, hpart.lookup]
      change ((attribute? _ _ part.names).bind fun value => _) = _
      rw [hnone]
      rfl
  | some fileName =>
      have hnames : part.names = encodeString "form-data; name=\"file\"; " ++
          (encodeString "filename" ++ (0x3D :: quoted fileName ++ [])) := by
        rw [names, hname, hfile, Option.elim_some, List.append_nil]
        rfl
      refine hpart.read_attribute (encodeString "form-data; name=\"file\"; ") [] (hpart.fileName fileName hfile) ?_
        (by decide +kernel)
      rw [hnames]
      refine cutAt?_of_not_infix ?_ ?_ _
      · decide +kernel
      · decide +kernel

end WellFormed

end SentPart

/-! ### Reading forms -/

variable {part : SentPart} {boundary : String}

theorem readPart_bytes (hpart : part.WellFormed boundary) (hboundary : 0x0D ∉ encodeString boundary) (rest : Bytes) :
    readPart (encodeString boundary) (part.bytes ++ (lineBreak ++ Form.separator boundary) ++ rest) =
      some (partOf (part.lines.map HeaderLine.header) part.content, rest) := by
  obtain ⟨line, lines, hcons⟩ : ∃ line lines, part.lines = line :: lines := List.exists_cons_of_ne_nil (by simp [SentPart.lines])
  obtain ⟨hline, hlines⟩ := List.forall_mem_cons.1 (hcons ▸ hpart.lines)
  obtain ⟨head, hcut, hhead⟩ := cutAt?_lines hline hlines (part.content ++ (lineBreak ++ Form.separator boundary) ++ rest)
  have hbytes : part.bytes ++ (lineBreak ++ Form.separator boundary) ++ rest =
      (line :: lines).flatMap HeaderLine.bytes ++ lineBreak ++
        (part.content ++ (lineBreak ++ Form.separator boundary) ++ rest) := by
    rw [SentPart.bytes, hcons]
    simp only [List.append_assoc]
  have hheaders : readHeaders headerLimit (head ++ lineBreak ++ lineBreak) = some (part.lines.map HeaderLine.header) := by
    have hread := readHeaders_lines hpart.lines hpart.count []
    rwa [List.append_nil, hcons, ← hhead, ← hcons] at hread
  have hcontent : cutAt? (lineBreak ++ Form.separator boundary)
      (part.content ++ (lineBreak ++ Form.separator boundary) ++ rest) = some (part.content, rest) := by
    have hcr : 0x0D ∉ 0x0A :: Form.separator boundary := by
      simp only [Form.separator, dashes, List.cons_append, List.nil_append, List.mem_cons, not_or]
      exact ⟨by decide, by decide, by decide, hboundary⟩
    rw [List.append_assoc]
    exact cutAt?_of_not_infix hpart.content hcr rest
  rw [readPart, hbytes, hcut]
  change ((readHeaders headerLimit (head ++ lineBreak ++ lineBreak)).bind fun headers => _) = _
  rw [hheaders]
  change ((cutAt? (lineBreak ++ dashes ++ encodeString boundary) _).bind fun cut => _) = _
  rw [List.append_assoc lineBreak dashes, ← Form.separator, hcontent]
  rfl

theorem readParts_lineBreak (boundary : Bytes) (fuel : Nat) (rest : Bytes) :
    readParts boundary (fuel + 1) (lineBreak ++ rest) =
      match readPart boundary rest with
      | none => ([], false)
      | some (part, rest) => (part :: (readParts boundary fuel rest).1, (readParts boundary fuel rest).2) := by
  change readParts boundary (fuel + 1) (0x0D :: 0x0A :: rest) = _
  rw [readParts, if_neg (fun hdashes => nomatch hdashes), if_neg (by simp)]
  rfl

theorem readParts_bytesAfter {parts : List SentPart} (hparts : ∀ part ∈ parts, part.WellFormed boundary)
    (hboundary : 0x0D ∉ encodeString boundary) (epilogue : Bytes) {fuel : Nat} (hfuel : parts.length < fuel) :
    readParts (encodeString boundary) fuel (Form.bytesAfter boundary epilogue parts) =
      (parts.map fun part => partOf (part.lines.map HeaderLine.header) part.content, true) := by
  induction parts generalizing fuel with
  | nil =>
      obtain ⟨fuel, rfl⟩ := Nat.exists_eq_add_one_of_ne_zero (Nat.ne_of_gt hfuel)
      rfl
  | cons part parts ih =>
      obtain ⟨fuel, rfl⟩ := Nat.exists_eq_add_one_of_ne_zero (Nat.ne_of_gt (Nat.lt_of_le_of_lt (Nat.zero_le _) hfuel))
      obtain ⟨hpart, hothers⟩ := List.forall_mem_cons.1 hparts
      rw [Form.bytesAfter, List.append_assoc, List.append_assoc, readParts_lineBreak, ← List.append_assoc,
        readPart_bytes hpart hboundary]
      dsimp only
      rw [ih hothers (Nat.lt_of_succ_lt_succ hfuel), List.map_cons]

theorem length_parts_le (boundary : String) (epilogue : Bytes) (parts : List SentPart) :
    parts.length ≤ (Form.bytesAfter boundary epilogue parts).length := by
  induction parts with
  | nil => exact Nat.zero_le _
  | cons part parts ih =>
      rw [Form.bytesAfter, List.length_append, List.length_append, List.length_append, List.length_cons]
      change _ + 1 ≤ 2 + _ + _ + _
      omega

/-- The parts of a form are read as they have been sent. -/
theorem read_bytes {form : Form} (hform : form.WellFormed) :
    read form.boundary form.bytes = (form.parts.map fun part => partOf (part.lines.map HeaderLine.header) part.content, true) := by
  obtain ⟨front, hcut⟩ : ∃ front, cutAt? (Form.separator form.boundary) form.bytes =
      some (front, Form.bytesAfter form.boundary form.epilogue form.parts) := by
    have htail : 0x0D ∉ (Form.separator form.boundary).tail := by
      change 0x0D ∉ 0x2D :: encodeString form.boundary
      rw [List.mem_cons, not_or]
      exact ⟨by decide, hform.boundary⟩
    rw [Form.bytes]
    cases hpreamble : form.preamble with
    | none => exact ⟨[], cutAt?_self _ _⟩
    | some text =>
        have hbreak : cutAt? (Form.separator form.boundary) (lineBreak ++ (Form.separator form.boundary ++ _)) = _ :=
          cutAt?_of_not_mem (by decide) (Form.bytesAfter form.boundary form.epilogue form.parts)
        have htext := cutAt?_append_of_not_infix (hform.preamble text hpreamble) htail
          (0x0A :: (Form.separator form.boundary ++ Form.bytesAfter form.boundary form.epilogue form.parts))
        refine ⟨text ++ lineBreak, ?_⟩
        rw [List.append_assoc, List.append_assoc]
        exact htext.trans (congrArg (Option.map _) hbreak)
  change cutAt? (dashes ++ encodeString form.boundary) form.bytes = _ at hcut
  rw [read, hcut]
  refine readParts_bytesAfter hform.parts hform.boundary _ (Nat.lt_succ_of_le ?_)
  refine Nat.le_trans (length_parts_le form.boundary form.epilogue form.parts) ?_
  rw [Form.bytes, List.length_append]
  exact Nat.le_add_left _ _

/-- The first part for a file is read with the name of its file and its content. -/
theorem find?_read {form : Form} (hform : form.WellFormed) :
    (read form.boundary form.bytes).1.find? (·.name == some "file") =
      (form.parts.find? (·.name == "file")).map fun part =>
        { name := some "file", fileName := part.fileName, content := part.content } := by
  rw [read_bytes hform]
  dsimp only
  have hparts := hform.parts
  generalize form.parts = parts at hparts
  induction parts with
  | nil => rfl
  | cons part parts ih =>
      obtain ⟨hpart, hothers⟩ := List.forall_mem_cons.1 hparts
      have hname : (partOf (part.lines.map HeaderLine.header) part.content).name = some part.name := hpart.read_name
      rw [List.map_cons, List.find?_cons, List.find?_cons, hname]
      by_cases hfile : part.name = "file"
      · have hread : partOf (part.lines.map HeaderLine.header) part.content =
            { name := some "file", fileName := part.fileName, content := part.content } := by
          rw [partOf, hpart.read_name, hpart.read_fileName hfile, hfile]
        rw [hread, hfile]
        rfl
      · rw [beq_false_of_ne hfile, beq_false_of_ne (mt Option.some.inj hfile)]
        exact ih hothers

end AddressBook.Http.Multipart
