import Mathlib
import CalibratedCosts.Proofs.Json.LineEnds
import CalibratedCosts.Proofs.Samples.Grouping

/-! # Two forms of a file of samples

    The same records can be written on lines of their own, or as one object that
    has them by operation.  Both give the same source, unless a line is cut
    inside a string: a JSON string may hold three of the characters that end a
    line.
-/

namespace CalibratedCosts.Samples

open Json (Blank Denotes Spells Value isBlank_of_isSpace)
open OrderedMap (IsLast)
open Text (isBlank isLineBreak)

/-! ## Section 1: what stands on the lines of a text -/

section Lines

variable {cs ds : List Char} {c : Char}

theorem contents_append (lines lines' : List (List Char)) :
    contents (lines ++ lines') = contents lines ++ contents lines' := by
  simp [contents]

theorem contents_linesAfter_append (hc : isLineBreak c = true) (line cs ds : List Char) :
    contents (Text.linesAfter line (cs ++ c :: ds)) =
      contents (Text.linesAfter line cs) ++ contents (Text.lines ds) := by
  -- On the text up to the boundary, whatever of its line has been passed.
  induction cs generalizing line with
  | nil =>
    rw [List.nil_append, Text.linesAfter_cons_of_isLineBreak hc, Text.linesAfter]
    by_cases hline : line = []
    · subst hline
      exact contents_cons_of_blank rfl _
    · rw [if_neg (by simpa using hline)]
      exact contents_append [line.reverse] _
  | cons d rest ih =>
    by_cases hd : isLineBreak d = true
    · rw [List.cons_append, Text.linesAfter_cons_of_isLineBreak hd,
        Text.linesAfter_cons_of_isLineBreak hd]
      show contents ([line.reverse] ++ _) = contents ([line.reverse] ++ _) ++ _
      rw [contents_append, contents_append, List.append_assoc]
      exact congrArg (contents [line.reverse] ++ ·) (ih [])
    · rw [List.cons_append, Text.linesAfter, if_neg hd, Text.linesAfter, if_neg hd]
      exact ih (d :: line)

/-- Behind a boundary the lines are those of the rest. -/
theorem contents_lines_append (hc : isLineBreak c = true) (cs ds : List Char) :
    contents (Text.lines (cs ++ c :: ds)) = contents (Text.lines cs) ++ contents (Text.lines ds) :=
  contents_linesAfter_append hc [] cs ds

/-- The lines of a text are those of its parts between line feeds. -/
theorem contents_lines (cs : List Char) :
    contents (Text.lines cs) =
      (Text.splitAt '\n' cs).flatMap fun part => contents (Text.lines part) := by
  -- On the length: each step takes a part and its line feed away.
  induction hlength : cs.length using Nat.strong_induction_on generalizing cs with
  | _ n ih =>
    by_cases h : '\n' ∈ cs
    · obtain ⟨part, rest, rfl, hpart⟩ := List.eq_append_cons_of_mem h
      rw [List.length_append, List.length_cons] at hlength
      rw [contents_lines_append rfl, Text.splitAt_append hpart, List.flatMap_cons,
        ih rest.length (by omega) rest rfl]
    · rw [Text.splitAt_of_not_mem h, List.flatMap_singleton]

theorem contents_lines_of_forall (h : ∀ c ∈ cs, isLineBreak c = false) :
    contents (Text.lines cs) = contents [cs] := by
  by_cases hne : cs = []
  · subst hne
    rfl
  · rw [Text.lines_of_forall h hne]

theorem contents_of_blank {lines : List (List Char)} (h : ∀ line ∈ lines, ∀ c ∈ line, isBlank c) :
    contents lines = [] := by
  unfold contents
  rw [List.filter_eq_nil_iff, List.forall_mem_map]
  intro line hline
  have hempty : content line = [] := Text.trimBoth_eq_nil_iff.2 (h line hline)
  simp [hempty]

end Lines

/-! ## Section 2: records in writing -/

/-- A line writes a record: it is an object with the record's values, blanks
    around it aside. -/
def Writes (r : Record) (line : List Char) : Prop :=
  ∃ fields, Denotes .lenient line (.object fields) ∧
    IsLast fields "operation" (.text r.name) ∧
    IsLast fields "size" (.whole r.measurement.size) ∧
    IsLast fields "cost" (.whole r.measurement.cost)

/-- The lines of a text that are not blank, however its line ends are written. -/
def writtenLines (cs : List Char) : List (List Char) :=
  (Text.splitAt '\n' (Text.unifyLineEnds cs)).filter fun line => !line.all isBlank

/-- A text writes records in their order, each on a line of its own. -/
def WritesLines (records : List Record) (cs : List Char) : Prop :=
  List.Forall₂ Writes records (writtenLines cs)

/-- The object that has the measurements of records by operation, as pairs. -/
def objectOf (records : List Record) : Value :=
  .object ((Record.groups records).map fun g =>
    (g.1, .list (g.2.map fun m => .list [.whole m.size, .whole m.cost])))

/-- A text writes the object of records. -/
def WritesObject (records : List Record) (cs : List Char) : Prop :=
  Denotes .lenient cs (objectOf records)

/-- No line with a record holds a next line, a line separator or a paragraph
    separator. -/
def NoSeparators (cs : List Char) : Prop :=
  ∀ line ∈ writtenLines cs, ∀ c ∈ line, c ≠ '\u0085' ∧ c ≠ '\u2028' ∧ c ≠ '\u2029'

/-! ## Section 3: reading a written line -/

section Written

variable {r : Record} {line cs b b' : List Char} {fields : List (Text × Value)} {room : ℕ}

/-- What stands on the line is the object. -/
theorem content_of_spells (hb : Blank b) (hb' : Blank b')
    (h : Spells .lenient room (.value (.object fields)) cs) : content (b ++ cs ++ b') = cs := by
  obtain ⟨body, rfl⟩ := h.exists_braces
  unfold content
  rw [List.append_assoc, Text.trimBoth_append_left fun c hc => isBlank_of_isSpace (hb c hc)]
  apply Text.trimBoth_append fun c hc => isBlank_of_isSpace (hb' c hc)
  · rintro c ⟨⟩
    rfl
  · rw [List.getLast?_concat]
    rintro c ⟨⟩
    rfl

theorem Writes.recordOf_content (h : Writes r line) :
    recordOf (content line) = .ok (.text r.name, r.measurement) := by
  obtain ⟨fields, ⟨b, cs, b', hb, hb', rfl, hspells⟩, hoperation, hsize, hcost⟩ := h
  have hread := Json.read_eq_ok hspells Blank.nil Blank.nil
  have hoperation' := Datum.field_ofJson_object.2 ⟨_, hoperation, rfl⟩
  have hsize' := Datum.field_ofJson_object.2 ⟨_, hsize, rfl⟩
  have hcost' := Datum.field_ofJson_object.2 ⟨_, hcost, rfl⟩
  -- Nothing but the object stands on the line once it is trimmed.
  rw [List.append_nil, List.nil_append] at hread
  rw [content_of_spells hb hb' hspells, recordOf, hread]
  show (keyOf _ >>= _) = _
  unfold keyOf recordedPart
  dsimp only [Part.name]
  rw [hoperation', hsize', hcost']
  rfl

theorem exists_read_of_recordOf {record : Datum × Measurement} (h : recordOf cs = .ok record) :
    ∃ v, Json.read .lenient cs = .ok v := by
  unfold recordOf at h
  split at h
  · cases h
  · rename_i v hread
    exact ⟨v, hread⟩

/-- What has been read in front of blanks stands there without blanks. -/
theorem exists_spells_of_read {v : Value} {front : List Char}
    (h : Json.read .lenient (content ('{' :: front)) = .ok v) :
    ∃ cs after, '{' :: front = cs ++ after ∧
      Spells .lenient Json.Dialect.lenient.depthLimit (.value v) cs ∧ ∀ c ∈ after, isBlank c := by
  have hstart : ∀ c ∈ ('{' :: front).head?, isBlank c = false := by
    rintro c ⟨⟩
    rfl
  obtain ⟨after, hsplit, hafter⟩ := Text.exists_trimBoth_append hstart
  obtain ⟨b, cs, b', hb, hb', hcontent, hspells⟩ := Json.read_eq_ok_iff.1 h
  have htrim : Text.trimBoth isBlank ('{' :: front) = b ++ cs ++ b' := hcontent
  rw [htrim] at hsplit
  -- The text opens with a brace, so no blank stands before what is spelled.
  cases b with
  | nil =>
    refine ⟨cs, b' ++ after, by rw [hsplit]; simp, hspells, ?_⟩
    exact List.forall_mem_append.2 ⟨fun c hc => isBlank_of_isSpace (hb' c hc), hafter⟩
  | cons d b =>
    obtain ⟨rfl, -⟩ := List.cons.inj hsplit
    exact absurd (hb '{' List.mem_cons_self) (by decide)

/-- A boundary inside an object stands behind the opening brace. -/
theorem exists_brace_of_isLineBreak {c : Char} {rest : List Char}
    (h : Spells .lenient room (.value (.object fields)) (cs ++ c :: rest)) (hc : isLineBreak c) :
    ∃ front, cs = '{' :: front := by
  obtain ⟨body, hbraces⟩ := h.exists_braces
  cases cs with
  | nil =>
    obtain ⟨rfl, -⟩ := List.cons.inj hbraces
    exact absurd hc (by decide)
  | cons d front =>
    obtain ⟨rfl, -⟩ := List.cons.inj hbraces
    exact ⟨front, rfl⟩

/-- In front of a boundary inside an object there is no record. -/
theorem recordOf_ne_ok {c : Char} {rest : List Char}
    (h : Spells .lenient Json.Dialect.lenient.depthLimit (.value (.object fields))
      (cs ++ c :: rest))
    (hc : isLineBreak c) (record : Datum × Measurement) : recordOf (content cs) ≠ .ok record := by
  intro hrecord
  obtain ⟨v, hread⟩ := exists_read_of_recordOf hrecord
  obtain ⟨front, rfl⟩ := exists_brace_of_isLineBreak h hc
  -- The object's own text would go on behind another value.
  obtain ⟨cs, after, hfront, hspells, hafter⟩ := exists_spells_of_read hread
  rw [hfront, List.append_assoc] at h
  have hends : Json.EndsNumber (after ++ c :: rest) := by
    intro d hd
    apply Json.continuesNumber_of_isBlank
    cases after with
    | nil =>
      cases hd
      exact Text.isBlank_of_isLineBreak hc
    | cons d' after =>
      cases hd
      exact hafter _ List.mem_cons_self
  have hnil := hspells.eq_nil_of_append h hends
  simp at hnil

/-- A written line that is cut has a part that is no record. -/
theorem Writes.exists_recordOf_ne_ok (h : Writes r line) (hfeed : '\n' ∉ line)
    (hreturn : '\r' ∉ line) (hcut : ∃ c ∈ line, isLineBreak c) :
    ∃ cs ∈ contents (Text.lines line), ∀ record, recordOf cs ≠ .ok record := by
  obtain ⟨fields, ⟨b, cs, b', hb, hb', rfl, hspells⟩, -⟩ := h
  simp only [List.mem_append, not_or] at hfeed hreturn
  have hblank := hb.isLineBreak_eq_false hfeed.1.1 hreturn.1.1
  have hblank' := hb'.isLineBreak_eq_false hfeed.2 hreturn.2
  -- The boundary is inside the object.
  have hinside : ∃ c ∈ cs, isLineBreak c = true := by
    obtain ⟨c, hc, hbreak⟩ := hcut
    simp only [List.mem_append] at hc
    rcases hc with (hc | hc) | hc
    · exact absurd hbreak (by simp [hblank c hc])
    · exact ⟨c, hc, hbreak⟩
    · exact absurd hbreak (by simp [hblank' c hc])
  obtain ⟨front, c, after, rfl, hc, hfront⟩ := Text.exists_first_isLineBreak hinside
  refine ⟨content front, ?_, recordOf_ne_ok hspells hc⟩
  have hline : b ++ (front ++ c :: after) ++ b' = b ++ front ++ c :: (after ++ b') := by simp
  have hcontent : content (b ++ front) = content front :=
    Text.trimBoth_append_left (fun c hc => isBlank_of_isSpace (hb c hc)) front
  have hne : content front ≠ [] := by
    obtain ⟨front, rfl⟩ := exists_brace_of_isLineBreak hspells hc
    intro hnil
    exact absurd (Text.trimBoth_eq_nil_iff.1 hnil '{' List.mem_cons_self) (by decide)
  rw [hline, contents_lines_append hc,
    contents_lines_of_forall (List.forall_mem_append.2 ⟨hblank, hfront⟩),
    contents_cons (by rw [hcontent]; exact hne), hcontent]
  exact List.mem_append_left _ List.mem_cons_self

end Written

/-! ## Section 4: texts -/

variable {records : List Record} {cs : List Char} {path : String}

theorem forall_of_mem_writtenLines {line : List Char} (h : line ∈ writtenLines cs) :
    '\n' ∉ line ∧ '\r' ∉ line := by
  have hmem := Text.forall_of_mem_splitAt (List.mem_of_mem_filter h)
  exact ⟨fun hc => (hmem _ hc).2 rfl, fun hc => Text.not_mem_unifyLineEnds cs (hmem _ hc).1⟩

/-- Only the three separators cut a written line. -/
theorem Writes.isLineBreak_iff {r : Record} {line : List Char} (h : Writes r line)
    (hline : line ∈ writtenLines cs) {c : Char} (hc : c ∈ line) :
    isLineBreak c ↔ c = '\u0085' ∨ c = '\u2028' ∨ c = '\u2029' := by
  obtain ⟨fields, hdenotes, -⟩ := h
  obtain ⟨hfeed, hreturn⟩ := forall_of_mem_writtenLines hline
  exact Json.isLineBreak_iff (hdenotes.noOtherControls c hc) (ne_of_mem_of_not_mem hc hfeed)
    (ne_of_mem_of_not_mem hc hreturn)

/-- Parts of a text that are cut nowhere are lines, the blank ones aside. -/
theorem flatMap_contents_lines {parts : List (List Char)}
    (h : ∀ part ∈ parts.filter fun part => !part.all isBlank, ∀ c ∈ part, isLineBreak c = false) :
    (parts.flatMap fun part => contents (Text.lines part)) =
      (parts.filter fun part => !part.all isBlank).map content := by
  induction parts with
  | nil => rfl
  | cons part rest ih =>
    -- A blank part has blank lines only, and they are dropped; any other part
    -- is one line.
    by_cases hblank : part.all isBlank = true
    · rw [List.filter_cons_of_neg (by simp [hblank])] at h ⊢
      rw [List.flatMap_cons, ih h, contents_of_blank, List.nil_append]
      exact fun line hline c hc =>
        List.all_eq_true.1 hblank c (Text.forall_of_mem_lines hline c hc)
    · rw [List.filter_cons_of_pos (by simpa using hblank)] at h ⊢
      obtain ⟨hpart, hrest⟩ := List.forall_mem_cons.1 h
      have hne : content part ≠ [] :=
        fun hnil => hblank (List.all_eq_true.2 (Text.trimBoth_eq_nil_iff.1 hnil))
      rw [List.flatMap_cons, ih hrest, contents_lines_of_forall hpart, contents_cons hne,
        List.map_cons]
      rfl

namespace RecordedSamples

theorem ne_empty_of_mem_groups : ∀ e ∈ Record.groups records, e.1 ≠ "" := by
  intro e he
  obtain ⟨operation, hmem, rfl⟩ := List.mem_map.1 he
  obtain ⟨r, -, rfl⟩ := Record.mem_operations_iff.1 hmem
  exact r.name_ne_empty

/-- Lines that are cut nowhere give the source of their records. -/
theorem outcome_ofLines_of_writesLines (h : WritesLines records cs) (hwhole : NoSeparators cs) :
    (ofLines path (Text.unifyLineEnds cs)).outcome = .ok (ofRecords records) := by
  have hlines := forall_mem_of_forall₂ h fun r line hr => Exists.intro r hr
  -- No line is cut further, since it holds none of the other line breaks.
  have huncut : ∀ line ∈ writtenLines cs, ∀ c ∈ line, isLineBreak c = false := by
    intro line hline c hc
    obtain ⟨r, hr⟩ := hlines line hline
    rw [← Bool.not_eq_true, hr.isLineBreak_iff hline hc]
    obtain ⟨hnext, hseparator, hparagraph⟩ := hwhole line hline c hc
    rintro (heq | heq | heq)
    · exact hnext heq
    · exact hseparator heq
    · exact hparagraph heq
  have hcontents : contents (Text.lines (Text.unifyLineEnds cs)) =
      (writtenLines cs).map content := by
    rw [contents_lines, flatMap_contents_lines huncut]
    rfl
  have hread : (contents (Text.lines (Text.unifyLineEnds cs))).mapM recordOf =
      .ok (records.map fun r => (.text r.name, r.measurement)) := by
    rw [hcontents, mapM_eq_ok_iff, List.forall₂_map_left_iff, List.forall₂_map_right_iff]
    exact List.Forall₂.flip (h.imp fun _ _ => Writes.recordOf_content)
  rw [outcome_ofLines, addRecords_of_records hread]
  show ofEntries _ = _
  rw [entries_foldl_put, ofEntries_texts ne_empty_of_mem_groups]
  rfl

/-- Lines of which one is cut give no source. -/
theorem outcome_ofLines_ne_ok (h : WritesLines records cs) (hcut : ¬ NoSeparators cs)
    (recorded : RecordedSamples) :
    (ofLines path (Text.unifyLineEnds cs)).outcome ≠ .ok recorded := by
  intro hok
  rw [outcome_ofLines] at hok
  obtain ⟨grouped, hadd, -⟩ := bind_eq_ok_iff.1 hok
  obtain ⟨read, hread, -⟩ := addRecords_eq_ok_iff.1 hadd
  -- Some line holds a separator: its front part stands alone and is no record.
  simp only [NoSeparators, not_forall, not_and_or, not_not] at hcut
  obtain ⟨line, hline, c, hc, hseparator⟩ := hcut
  obtain ⟨r, hr⟩ := forall_mem_of_forall₂ h (fun r line hr => Exists.intro r hr) line hline
  obtain ⟨hfeed, hreturn⟩ := forall_of_mem_writtenLines hline
  obtain ⟨front, hfront, hne⟩ := hr.exists_recordOf_ne_ok hfeed hreturn
    ⟨c, hc, (hr.isLineBreak_iff hline hc).2 hseparator⟩
  have hmem : front ∈ contents (Text.lines (Text.unifyLineEnds cs)) := by
    rw [contents_lines]
    exact List.mem_flatMap.2 ⟨line, List.mem_of_mem_filter hline, hfront⟩
  obtain ⟨record, hrecord⟩ := exists_mapM_eq_ok_iff.1 ⟨read, hread⟩ front hmem
  exact hne record hrecord

theorem ofJson_measurements (measurements : List Measurement) :
    Datum.ofJson (.list (measurements.map fun m => .list [.whole m.size, .whole m.cost])) =
      pairsOf measurements := by
  rw [Datum.ofJson, Datum.ofJsonItems_eq, List.map_map]
  rfl

theorem ofJson_objectOf (records : List Record) :
    Datum.ofJson (objectOf records) =
      .object ((Record.groups records).map fun g => (g.1, pairsOf g.2)) := by
  have hnames : ((Record.groups records).map fun g => (g.1, pairsOf g.2)).map Prod.fst =
      Record.operations records := by
    rw [List.map_map, Record.groups, List.map_map]
    exact List.map_id _
  -- No name comes twice, so that none of the fields is lost.
  have hdistinct := (tabulates_ofRecords records).nodup
  rw [objectOf, Datum.ofJson, Datum.ofJsonFields_eq, List.map_map]
  simp only [Function.comp_def, ofJson_measurements]
  rw [OrderedMap.entries_ofList]
  rw [hnames]
  exact hdistinct.imp fun hne => by simpa using hne

/-- The object gives the source of its records, however its line ends are
    written. -/
theorem outcome_ofJson_of_writesObject (h : WritesObject records cs) :
    (ofJson path (Text.unifyLineEnds cs)).outcome = .ok (ofRecords records) := by
  have hread := Json.read_eq_ok_iff.2 (Denotes.unifyLineEnds h)
  -- Names are grouped, so each stands once, and an object keeps them all.
  have hentries : (((Record.groups records).map fun g => (g.1, pairsOf g.2)).map fun f =>
      (Datum.text f.1, f.2)) = (keyed (Record.groups records)).map fun e => (e.1, pairsOf e.2) := by
    rw [keyed, List.map_map, List.map_map]
    rfl
  unfold ofJson
  simp only [hread, ofJson_objectOf, Datum.object]
  rw [Traced.outcome_bind, Traced.outcome_report]
  show ofEntries _ = _
  rw [hentries, ofEntries_texts ne_empty_of_mem_groups]
  rfl

/-! ## Section 5: files -/

section Files

variable {σ : Type} {fs : FileSystem σ} {p q : FilePath} {lines object : List Char}

/-- The file at a path holds a text. -/
structure HoldsText (fs : FileSystem σ) (p : FilePath) (cs : List Char) : Prop where
  noNul : p.hasNul = false
  bytes : ∃ bytes, fs.read p = .ok bytes ∧ Text.Utf8.decode bytes = .ok cs

/-- **Two forms.**  The file with the object of some records gives a source that
    gives them back.  The file with a line for each of them gives the same source,
    or none if a line with a record holds a separator. -/
theorem formats_agree_iff (records : List Record) (hlines : HoldsText fs p lines)
    (hobject : HoldsText fs q object) (hp : p.suffix = ".jsonl") (hq : q.suffix ≠ ".jsonl")
    (hwrites : WritesLines records lines) (hwrites' : WritesObject records object) :
    ∃ recorded, (ofFile fs q).outcome = .ok recorded ∧ recorded.GivesBack records ∧
      ∀ a, (ofFile fs p).outcome = .ok a ↔ a = recorded ∧ NoSeparators lines := by
  obtain ⟨hnul, bytes, hread, hdecode⟩ := hlines
  obtain ⟨hnul', bytes', hread', hdecode'⟩ := hobject
  rw [ofFile_of_decode hnul hread hdecode, ofFile_of_decode hnul' hread' hdecode', if_pos hp,
    if_neg hq]
  refine ⟨ofRecords records, outcome_ofJson_of_writesObject hwrites', givesBack_ofRecords records,
    fun a => ?_⟩
  -- Without separators both formats give the records back; with one the lines
  -- give none.
  by_cases hwhole : NoSeparators lines
  · rw [outcome_ofLines_of_writesLines hwrites hwhole]
    simp [hwhole, eq_comm]
  · simpa [hwhole] using outcome_ofLines_ne_ok hwrites hwhole a

/-- The three fields in this order are a record. -/
theorem writes_of_read {r : Record} {line : List Char}
    (h : Json.read .lenient line = .ok (.object [("operation", .text r.name),
      ("size", .whole r.measurement.size), ("cost", .whole r.measurement.cost)])) :
    Writes r line := by
  have hsize : ("size" : Text) ≠ "operation" := by decide
  have hcost : ("cost" : Text) ≠ "operation" := by decide
  have hcost' : ("cost" : Text) ≠ "size" := by decide
  refine ⟨_, Json.read_eq_ok_iff.1 h, ⟨[], _, rfl, ?_⟩, ⟨[_], _, rfl, ?_⟩, ⟨[_, _], [], rfl, ?_⟩⟩
  all_goals simp [hsize, hcost, hcost']

def twoFiles (lines object : String) : FileSystem Unit :=
  ((FileSystem.emptyAt []).put ["r.jsonl"] (.file (Text.Utf8.encode lines))).put ["r.json"]
    (.file (Text.Utf8.encode object))

theorem holdsText_twoFiles (lines object : String) :
    HoldsText (twoFiles lines object) (.ofText "r.jsonl") lines.toList ∧
    HoldsText (twoFiles lines object) (.ofText "r.json") object.toList :=
  ⟨⟨rfl, _, rfl, Text.Utf8.decode_encode lines⟩, ⟨rfl, _, rfl, Text.Utf8.decode_encode object⟩⟩

def mixedRecords : List Record :=
  [⟨"a", ⟨1, 2⟩, by decide⟩, ⟨"b", ⟨3, 4⟩, by decide⟩, ⟨"a", ⟨5, 6⟩, by decide⟩]

/-- The records on lines, with a blank line between them and a name that is
    spelled in two ways. -/
def mixedLines : String :=
  "\x7b\"operation\": \"a\", \"size\": 1, \"cost\": 2\x7d\r\n \n" ++
    "\x7b\"operation\": \"b\", \"size\": 3, \"cost\": 4\x7d\n" ++
    "\x7b\"operation\": \"\\u0061\", \"size\": 5, \"cost\": 6\x7d\n"

def mixedObject : String := "\x7b\"a\": [[1, 2], [5, 6]], \"b\": [[3, 4]]\x7d"

theorem writtenLines_mixedLines :
    writtenLines mixedLines.toList =
      ["\x7b\"operation\": \"a\", \"size\": 1, \"cost\": 2\x7d".toList,
       "\x7b\"operation\": \"b\", \"size\": 3, \"cost\": 4\x7d".toList,
       "\x7b\"operation\": \"\\u0061\", \"size\": 5, \"cost\": 6\x7d".toList] := by
  cbv

/-- The mixed records are given back from either form. -/
theorem formats_agree_on_mixedRecords :
    HoldsText (twoFiles mixedLines mixedObject) (.ofText "r.jsonl") mixedLines.toList ∧
    HoldsText (twoFiles mixedLines mixedObject) (.ofText "r.json") mixedObject.toList ∧
    WritesLines mixedRecords mixedLines.toList ∧
    WritesObject mixedRecords mixedObject.toList ∧
    ∃ recorded, recorded.GivesBack mixedRecords ∧
      (ofFile (twoFiles mixedLines mixedObject) (.ofText "r.json")).outcome = .ok recorded ∧
      (ofFile (twoFiles mixedLines mixedObject) (.ofText "r.jsonl")).outcome = .ok recorded := by
  have hwrites : WritesLines mixedRecords mixedLines.toList := by
    unfold WritesLines
    rw [writtenLines_mixedLines]
    refine .cons (writes_of_read ?_) (.cons (writes_of_read ?_) (.cons (writes_of_read ?_) .nil))
    all_goals cbv
  have hwrites' : WritesObject mixedRecords mixedObject.toList := Json.read_eq_ok_iff.1 (by cbv)
  have hall : (writtenLines mixedLines.toList).all (fun line => line.all fun c =>
      c != '\u0085' && c != '\u2028' && c != '\u2029') = true := by
    rw [writtenLines_mixedLines]
    cbv
  -- The absence of separators is decided on the written lines, character by
  -- character.
  have hwhole : NoSeparators mixedLines.toList := by
    simpa [NoSeparators, List.all_eq_true, and_assoc] using hall
  obtain ⟨hlines, hobject⟩ := holdsText_twoFiles mixedLines mixedObject
  obtain ⟨recorded, hload, hback, hiff⟩ :=
    formats_agree_iff mixedRecords hlines hobject rfl (by decide) hwrites hwrites'
  exact ⟨hlines, hobject, hwrites, hwrites', recorded, hback, hload,
    (hiff recorded).2 ⟨rfl, hwhole⟩⟩

def separatedRecords : List Record := [⟨"a\u2028b", ⟨1, 2⟩, by decide⟩]

def separatedLines : String :=
  "\x7b\"operation\": \"a\u2028b\", \"size\": 1, \"cost\": 2\x7d\n"

def separatedObject : String := "\x7b\"a\u2028b\": [[1, 2]]\x7d"

/-- The line is cut inside the name, so that only the object is loaded. -/
theorem separated_formats_disagree :
    HoldsText (twoFiles separatedLines separatedObject) (.ofText "r.jsonl")
      separatedLines.toList ∧
    HoldsText (twoFiles separatedLines separatedObject) (.ofText "r.json")
      separatedObject.toList ∧
    WritesLines separatedRecords separatedLines.toList ∧
    WritesObject separatedRecords separatedObject.toList ∧
    ¬ ∃ a, (ofFile (twoFiles separatedLines separatedObject) (.ofText "r.jsonl")).outcome =
      .ok a := by
  have hwritten : writtenLines separatedLines.toList =
      ["\x7b\"operation\": \"a\u2028b\", \"size\": 1, \"cost\": 2\x7d".toList] := by
    cbv
  have hwrites : WritesLines separatedRecords separatedLines.toList := by
    unfold WritesLines
    rw [hwritten]
    exact .cons (writes_of_read (by cbv)) .nil
  have hwrites' : WritesObject separatedRecords separatedObject.toList :=
    Json.read_eq_ok_iff.1 (by cbv)
  have hcut : ¬ NoSeparators separatedLines.toList := by
    intro hwhole
    have hmem : '\u2028' ∈
        "\x7b\"operation\": \"a\u2028b\", \"size\": 1, \"cost\": 2\x7d".toList := by
      decide
    rw [NoSeparators, hwritten] at hwhole
    exact (hwhole _ List.mem_cons_self _ hmem).2.1 rfl
  obtain ⟨hlines, hobject⟩ := holdsText_twoFiles separatedLines separatedObject
  refine ⟨hlines, hobject, hwrites, hwrites', ?_⟩
  rintro ⟨a, ha⟩
  obtain ⟨bytes, hread, hdecode⟩ := hlines.bytes
  have hsuffix : (FilePath.ofText "r.jsonl").suffix = ".jsonl" := rfl
  rw [ofFile_of_decode hlines.noNul hread hdecode, if_pos hsuffix] at ha
  exact outcome_ofLines_ne_ok hwrites hcut a ha

end Files

end RecordedSamples
end CalibratedCosts.Samples
