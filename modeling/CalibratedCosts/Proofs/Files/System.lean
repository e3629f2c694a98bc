import Mathlib
import CalibratedCosts.Files.System
import CalibratedCosts.Proofs.Outcome
import CalibratedCosts.Proofs.OrderedMap
import CalibratedCosts.Proofs.Text.Lines
import CalibratedCosts.Proofs.Text.Utf8

/-! # What paths lead to before and after a write

    * **Paths**: names are followed through directories alone, so that a path
      leads to the same location as long as no directory is taken away.
    * **Changes**: a file system that is as before but for the node at one
      location.
    * **Writing**: a file that is written as a whole is such a change, or
      else the file system is as it was, whichever step has failed.  What was
      written is read back.
-/

namespace CalibratedCosts.FileSystem

variable {σ : Type} {fs fs' : FileSystem σ} {p : FilePath} {location here : Location}

/-! ## Section 1: following paths -/

/-- A name is followed from a directory, to the directory above or to what
    has the name. -/
theorem follow_cons_eq_ok_iff {name : String} {rest : List String}
    {found : Location × Option (Node σ)} :
    fs.follow here (name :: rest) = .ok found ↔
      fs.node? here = some .directory ∧
      (name = ".." ∧ fs.follow here.dropLast rest = .ok found ∨
        name ≠ ".." ∧ (Text.Utf8.encode name).length ≤ nameLimit ∧
          fs.follow (here ++ [name]) rest = .ok found) := by
  rw [follow]
  rcases hhere : fs.node? here with _ | (_ | _ | _)
  · simp
  · simp
  · by_cases hup : name = ".."
    · simp [hup]
    by_cases hlong : nameLimit < (Text.Utf8.encode name).length
    · simp [hup, hlong, not_le.2 hlong]
    -- The last name leads to nothing in the same way.
    rcases hnext : fs.node? (here ++ [name]) with _ | node
    · cases rest with
      | nil => simp [hup, hlong, not_lt.1 hlong, follow, hnext]
      | cons next rest => simp [hup, hlong, follow, hnext]
    · simp [hup, hlong, not_lt.1 hlong, hnext]
  · simp

/-- A path leads to the same location as long as every directory stays one. -/
theorem follow_of_directories (h : ∀ l, fs.node? l = some .directory → fs'.node? l = some .directory)
    {names : List String} {n : Option (Node σ)} (hfollow : fs.follow here names = .ok (location, n)) :
    n = fs.node? location ∧ fs'.follow here names = .ok (location, fs'.node? location) := by
  induction names generalizing here with
  | nil =>
    cases hfollow
    exact ⟨rfl, rfl⟩
  | cons name rest ih =>
    rw [follow_cons_eq_ok_iff] at hfollow ⊢
    -- Both steps stand on a directory, and every directory of the one system is
    -- one of the other.
    obtain ⟨hhere, ⟨hup, hrest⟩ | ⟨hname, hshort, hrest⟩⟩ := hfollow
    · obtain ⟨hn, hrest'⟩ := ih hrest
      exact ⟨hn, h here hhere, .inl ⟨hup, hrest'⟩⟩
    · obtain ⟨hn, hrest'⟩ := ih hrest
      exact ⟨hn, h here hhere, .inr ⟨hname, hshort, hrest'⟩⟩

theorem node?_of_follow {names : List String} {n : Option (Node σ)}
    (h : fs.follow here names = .ok (location, n)) : n = fs.node? location :=
  (follow_of_directories (fun _ hl => hl) h).1

theorem locate_eq_ok_iff {found : Location × Option (Node σ)} :
    fs.locate p = .ok found ↔
      checkLength p.text = .ok () ∧ fs.follow (fs.start p) p.parts = .ok found := by
  unfold locate
  rw [bind_eq_ok_iff]
  exact ⟨fun ⟨_, hlength, hfollow⟩ => ⟨hlength, hfollow⟩,
    fun ⟨hlength, hfollow⟩ => ⟨(), hlength, hfollow⟩⟩

theorem locate_of_directories (hworking : fs'.working = fs.working)
    (h : ∀ l, fs.node? l = some .directory → fs'.node? l = some .directory)
    {n : Option (Node σ)} (hlocate : fs.locate p = .ok (location, n)) :
    n = fs.node? location ∧ fs'.locate p = .ok (location, fs'.node? location) := by
  obtain ⟨hlength, hfollow⟩ := locate_eq_ok_iff.1 hlocate
  obtain ⟨hn, hfollow'⟩ := follow_of_directories h hfollow
  have hstart : fs'.start p = fs.start p := by rw [start, start, hworking]
  rw [← hstart] at hfollow'
  exact ⟨hn, locate_eq_ok_iff.2 ⟨hlength, hfollow'⟩⟩

/-! ## Section 2: changes -/

/-- The second file system is the first one but for the node at a location
    that was free for a file. -/
structure ChangedAt (fs fs' : FileSystem σ) (location : Location) (node : Node σ) : Prop where
  working : fs'.working = fs.working
  free : fs.node? location ≠ some .directory
  node? : ∀ l, fs'.node? l = if l = location then some node else fs.node? l

theorem not_isPrefixOf_of_free (h : fs.node? location ≠ some .directory) :
    location.isPrefixOf fs.working = false := by
  rw [Bool.eq_false_iff]
  intro hprefix
  exact h (by rw [node?, if_pos hprefix])

/-- A node that is put somewhere is there, unless there is the working
    directory or one above it. -/
theorem node?_put (fs : FileSystem σ) (location : Location) (node : Node σ) (l : Location) :
    (fs.put location node).node? l =
      if l = location ∧ l.isPrefixOf fs.working = false then some node else fs.node? l := by
  unfold FileSystem.node? put
  rw [OrderedMap.get?_insert]
  by_cases hl : l = location
  · cases habove : l.isPrefixOf fs.working with
    | true => simp
    | false => simp [hl]
  · simp [hl]

theorem changedAt_put (h : fs.node? location ≠ some .directory) (node : Node σ) :
    ChangedAt fs (fs.put location node) location node where
  working := rfl
  free := h
  node? l := by
    rw [node?_put]
    by_cases hl : l = location
    · rw [if_pos ⟨hl, by rw [hl, not_isPrefixOf_of_free h]⟩, if_pos hl]
    · rw [if_neg fun hboth => hl hboth.1, if_neg hl]

theorem put_put (fs : FileSystem σ) (location : Location) (node node' : Node σ) :
    (fs.put location node).put location node' = fs.put location node' := by
  unfold put
  rw [OrderedMap.insert_insert (beq_self_eq_true location)]

/-- What was put where nothing had been can be taken back. -/
theorem remove_put (h : fs.node? location = none) (node : Node σ) :
    (fs.put location node).remove location = fs := by
  have hnone : fs.nodes.get? location = none := by
    unfold node? at h
    split_ifs at h with habove
    exact h
  unfold put remove
  rw [OrderedMap.erase_insert (beq_self_eq_true location) hnone]

namespace ChangedAt

variable {node : Node σ}

theorem self (h : ChangedAt fs fs' location node) : fs'.node? location = some node := by
  rw [h.node?, if_pos rfl]

theorem of_ne (h : ChangedAt fs fs' location node) {l : Location} (hl : l ≠ location) :
    fs'.node? l = fs.node? l := by
  rw [h.node?, if_neg hl]

/-- No directory is taken away. -/
theorem directories (h : ChangedAt fs fs' location node) (l : Location)
    (hl : fs.node? l = some .directory) : fs'.node? l = some .directory := by
  rw [h.of_ne, hl]
  rintro rfl
  exact h.free hl

/-- A file adds no directory. -/
theorem directories_rev (h : ChangedAt fs fs' location node) (hnode : node ≠ .directory)
    (l : Location) (hl : fs'.node? l = some .directory) : fs.node? l = some .directory := by
  rw [← hl, h.of_ne]
  rintro rfl
  rw [h.self] at hl
  exact hnode (Option.some.inj hl)

theorem locate (h : ChangedAt fs fs' location node) {l : Location} {n : Option (Node σ)}
    (hl : fs.locate p = .ok (l, n)) : fs'.locate p = .ok (l, fs'.node? l) :=
  (locate_of_directories h.working h.directories hl).2

/-- The node that was put somewhere can be replaced. -/
theorem put (h : ChangedAt fs fs' location node) (hnode : node ≠ .directory) (node' : Node σ) :
    ChangedAt fs (fs'.put location node') location node' := by
  have hput : ChangedAt fs' (fs'.put location node') location node' := by
    apply changedAt_put
    rw [h.self]
    exact fun heq => hnode (Option.some.inj heq)
  refine ⟨hput.working.trans h.working, h.free, fun l => ?_⟩
  by_cases hl : l = location
  · rw [hput.node?, if_pos hl, if_pos hl]
  · rw [hput.of_ne hl, h.of_ne hl, if_neg hl]

end ChangedAt

/-! ## Section 3: writing -/

theorem node?_of_temporaryLocation {tokens : List String}
    (h : fs.temporaryLocation p tokens = .ok location) : fs.node? location = none := by
  induction tokens with
  | nil => cases h
  | cons token rest ih =>
    rw [temporaryLocation] at h
    obtain ⟨-, -, h⟩ := bind_eq_ok_iff.1 h
    obtain ⟨⟨l, n⟩, hfollow, h⟩ := bind_eq_ok_iff.1 h
    -- A taken name sends the search to the next token.
    cases n with
    | none =>
      cases h
      exact (node?_of_follow hfollow).symm
    | some node => exact ih h

/-- Under a name the target is what the path leads to, unless that is a
    directory. -/
theorem targetLocation_of_name {name : String} (hlast : p.parts.getLast? = some name)
    (hname : name ≠ "..") :
    fs.targetLocation p =
      match fs.locate p with
      | .error e => .error e
      | .ok (_, some .directory) => .error .isADirectory
      | .ok (location, _) => .ok location := by
  unfold targetLocation
  rw [hlast]
  split
  · rename_i hnone
    cases hnone
  · rename_i hup
    exact absurd (Option.some.inj hup) hname
  · rfl

/-- A file takes the place of nothing but a file, and only under a name. -/
theorem targetLocation_eq_ok_iff :
    fs.targetLocation p = .ok location ↔
      (∃ name, p.parts.getLast? = some name ∧ name ≠ "..") ∧
        fs.locate p = .ok (location, fs.node? location) ∧ fs.node? location ≠ some .directory := by
  by_cases hname : ∃ name, p.parts.getLast? = some name ∧ name ≠ ".."
  · simp only [hname, true_and]
    obtain ⟨name, hlast, hup⟩ := hname
    rw [targetLocation_of_name hlast hup]
    cases hlocate : fs.locate p with
    | error e => simp
    | ok found =>
      obtain ⟨l, n⟩ := found
      -- The node that is found is the one at the location.
      obtain rfl := node?_of_follow (locate_eq_ok_iff.1 hlocate).2
      constructor
      · intro h
        split at h
        · cases h
        · cases h
        · rename_i hfree heq
          cases heq
          cases h
          exact ⟨rfl, hfree⟩
      · rintro ⟨heq, hfree⟩
        cases heq
        split
        · rename_i heq
          cases heq
        · rename_i heq
          exact absurd (congrArg Prod.snd (Except.ok.inj heq)) hfree
        · rename_i heq
          cases heq
          rfl
  · simp only [hname, false_and, iff_false]
    unfold targetLocation
    cases hlast : p.parts.getLast? with
    | none => simp
    | some name =>
      obtain rfl : name = ".." := not_not.1 fun hup => hname ⟨name, hlast, hup⟩
      cases fs.locate p <;> simp

/-- The target of a path depends on the directories alone. -/
theorem targetLocation_of_directories (hworking : fs'.working = fs.working)
    (h : ∀ l, fs'.node? l = some .directory ↔ fs.node? l = some .directory) :
    fs'.targetLocation p = .ok location ↔ fs.targetLocation p = .ok location := by
  rw [targetLocation_eq_ok_iff, targetLocation_eq_ok_iff, Ne, Ne, h]
  refine and_congr_right fun _ => and_congr_left fun _ => ⟨fun hl => ?_, fun hl => ?_⟩
  · exact (locate_of_directories hworking.symm (fun l => (h l).1) hl).2
  · exact (locate_of_directories hworking (fun l => (h l).2) hl).2

/-- A file that is put at the target of a path is what the path leads to. -/
theorem changedAt_of_targetLocation (h : fs.targetLocation p = .ok location)
    (bytes : List UInt8) :
    ChangedAt fs (fs.put location (.file bytes)) location (.file bytes) ∧
      (fs.put location (.file bytes)).locate p = .ok (location, some (.file bytes)) := by
  obtain ⟨-, hlocate, hfree⟩ := targetLocation_eq_ok_iff.1 h
  have hchanged := changedAt_put hfree (.file bytes)
  refine ⟨hchanged, ?_⟩
  rw [hchanged.locate hlocate, hchanged.self]

section WriteWhole

variable {bytes : List UInt8} {trouble : Interference}

/-- Nothing stops a file from being written: no step is interfered with, and
    there is a place for the temporary file and one for the target. -/
structure Interference.Permits (trouble : Interference) (fs : FileSystem σ) (p : FilePath) :
    Prop where
  creates : trouble.onCreate = none
  temporary : ∃ l, fs.temporaryLocation p trouble.tried = .ok l
  writes : trouble.onWrite = none
  renames : trouble.onRename = none
  target : ∃ l, fs.targetLocation p = .ok l

theorem stepUnder_eq_ok_iff {α : Type} {interference : Option SystemError}
    {step : Except SystemError α} {a : α} :
    stepUnder interference step = .ok a ↔ interference = none ∧ step = .ok a := by
  unfold stepUnder
  cases interference with
  | none => simp
  | some e => simp

/-- A write that something stops leaves the file system as it was, and any
    other puts the file where its path leads to. -/
theorem writeWhole_cases (fs : FileSystem σ) (p : FilePath) (bytes : List UInt8)
    (trouble : Interference) :
    (∃ e, fs.writeWhole p bytes trouble = (.error e, fs) ∧ ¬ trouble.Permits fs p) ∨
    ∃ target, fs.writeWhole p bytes trouble = (.ok (), fs.put target (.file bytes)) ∧
      trouble.Permits fs p ∧ fs.targetLocation p = .ok target := by
  unfold writeWhole
  cases htemporary : stepUnder trouble.onCreate (fs.temporaryLocation p trouble.tried) with
  | error e =>
    refine .inl ⟨e, rfl, fun hpermits => ?_⟩
    obtain ⟨l, hl⟩ := hpermits.temporary
    rw [stepUnder_eq_ok_iff.2 ⟨hpermits.creates, hl⟩] at htemporary
    cases htemporary
  | ok temporary =>
    obtain ⟨hcreates, hlocation⟩ := stepUnder_eq_ok_iff.1 htemporary
    have hnone := node?_of_temporaryLocation hlocation
    simp only [put_put, remove_put hnone]
    cases hwrite : trouble.onWrite with
    | some failure =>
      refine .inl ⟨failure.1, rfl, fun hpermits => ?_⟩
      rw [hpermits.writes] at hwrite
      cases hwrite
    | none =>
      -- The temporary file is no directory, so that it does not change the target.
      have hwritten := @changedAt_put σ fs temporary (by simp [hnone]) (.file bytes)
      have htarget : ∀ l, (fs.put temporary (.file bytes)).targetLocation p = .ok l ↔
          fs.targetLocation p = .ok l := fun l => targetLocation_of_directories hwritten.working
        fun l => ⟨hwritten.directories_rev (by simp) l, hwritten.directories l⟩
      cases hrename : stepUnder trouble.onRename
          ((fs.put temporary (.file bytes)).targetLocation p) with
      | error e =>
        refine .inl ⟨e, rfl, fun hpermits => ?_⟩
        obtain ⟨l, hl⟩ := hpermits.target
        rw [stepUnder_eq_ok_iff.2 ⟨hpermits.renames, (htarget l).2 hl⟩] at hrename
        cases hrename
      | ok target =>
        obtain ⟨hrenames, hl⟩ := stepUnder_eq_ok_iff.1 hrename
        have hl := (htarget target).1 hl
        exact .inr ⟨target, rfl, ⟨hcreates, ⟨temporary, hlocation⟩, hwrite, hrenames, target, hl⟩,
          hl⟩

end WriteWhole

/-! ## Section 4: reading -/

section ReadText

variable {e : SystemError} {bytes : List UInt8} {cs : List Char} {fault : Text.Utf8.Fault}

theorem readText_of_error (hnul : p.hasNul = false) (h : fs.read p = .error e) :
    fs.readText p = .error (.system e p.text) := by
  unfold readText
  simp only [hnul, if_neg Bool.false_ne_true, h]

theorem readText_of_undecodable (hnul : p.hasNul = false) (h : fs.read p = .ok bytes)
    (hdecode : Text.Utf8.decode bytes = .error fault) :
    fs.readText p = .error (.undecodable fault) := by
  unfold readText
  simp only [hnul, if_neg Bool.false_ne_true, h, hdecode]

theorem readText_of_decode (hnul : p.hasNul = false) (h : fs.read p = .ok bytes)
    (hdecode : Text.Utf8.decode bytes = .ok cs) : fs.readText p = .ok (Text.unifyLineEnds cs) := by
  unfold readText
  simp only [hnul, if_neg Bool.false_ne_true, h, hdecode]

end ReadText

/-- A text without carriage returns is read as it was written. -/
theorem readText_of_locate {s : String} (hnul : p.hasNul = false) (hplain : '\r' ∉ s.toList)
    (h : fs.locate p = .ok (location, some (.file (Text.Utf8.encode s)))) :
    fs.readText p = .ok s.toList := by
  have hread : fs.read p = .ok (Text.Utf8.encode s) := by
    unfold read
    rw [h]
  unfold readText
  simp only [hnul, if_neg Bool.false_ne_true, hread, Text.Utf8.decode_encode,
    Text.unifyLineEnds_eq_self hplain]

end CalibratedCosts.FileSystem
