import Mathlib
import CalibratedCosts.Proofs.Artifact.RoundTrip
import CalibratedCosts.Proofs.Table.Building
import CalibratedCosts.Proofs.Text.Utf8

/-! # The canonical text tells entries apart

    Entries whose names have no halves are read back from their canonical text,
    so that no two of them share it.

    * **Tables**: two tables have one canonical text exactly if they give every
      operation the same model, whenever they were calibrated and from
      whatever map they were built.
    * **Fingerprints**: tables of one fingerprint have the same entries, or
      their canonical texts are a collision of the digest.
-/

namespace CalibratedCosts

open Json (Value Fits)

theorem QuantizedModel.toJson_injective {m m' : QuantizedModel} (h : m.toJson = m'.toJson) :
    m = m' := by
  cases m
  cases m'
  simp only [QuantizedModel.toJson, Value.object.injEq, List.cons.injEq, Prod.mk.injEq, true_and,
    Value.whole.injEq, Int.natCast_inj, and_true] at h
  obtain ⟨rfl, rfl⟩ := h
  rfl

namespace Entries

variable {a b : Entries}

theorem toJson_injective (h : a.toJson = b.toJson) : a = b := by
  have hfields : Function.Injective fun e : Text × QuantizedModel => (e.1, e.2.toJson) := by
    intro e e' heq
    obtain ⟨hname, hmodel⟩ := Prod.mk.inj heq
    exact Prod.ext hname (QuantizedModel.toJson_injective hmodel)
  exact toList_injective (List.map_injective_iff.2 hfields (Value.object.inj h))

/-- Entries are read back from their canonical text. -/
theorem read_canonical (h : ∀ name ∈ a.names, name.IsString) :
    Json.read .lenient a.canonical.toList = .ok a.toJson := by
  have hnames : ∀ e ∈ a.toList, e.1.IsString := fun e he => h e.1 (List.mem_map_of_mem he)
  exact Json.read_compact (.object (Artifact.fits_entries hnames 988))

theorem canonical_injective (ha : ∀ name ∈ a.names, name.IsString)
    (hb : ∀ name ∈ b.names, name.IsString) (h : a.canonical = b.canonical) : a = b := by
  have hread := read_canonical ha
  rw [h, read_canonical hb] at hread
  exact (toJson_injective (Except.ok.inj hread)).symm

end Entries

/-- Two messages are a collision of the digest. -/
def Digest.Sha256.Collide (message message' : List UInt8) : Prop :=
  message ≠ message' ∧ hexDigest message = hexDigest message'

theorem Text.Utf8.encode_injective {s s' : String} (h : encode s = encode s') : s = s' := by
  have hdecode := decode_encode s
  rw [h, decode_encode s'] at hdecode
  exact String.toList_inj.1 (Except.ok.inj hdecode).symm

namespace Entries

variable {a b : Entries}

/-- The entries are the same, or else their canonical texts are a collision of
    the digest. -/
def SameOrCollide (a b : Entries) : Prop :=
  a = b ∨ Digest.Sha256.Collide (Text.Utf8.encode a.canonical) (Text.Utf8.encode b.canonical)

/-- No collision, no other entries under one fingerprint. -/
theorem sameOrCollide_of_fingerprint_eq (ha : ∀ name ∈ a.names, name.IsString)
    (hb : ∀ name ∈ b.names, name.IsString) (h : a.fingerprint = b.fingerprint) :
    a.SameOrCollide b := by
  by_cases hbytes : Text.Utf8.encode a.canonical = Text.Utf8.encode b.canonical
  · exact .inl (canonical_injective ha hb (Text.Utf8.encode_injective hbytes))
  · exact .inr ⟨hbytes, h⟩

end Entries

namespace CostModelTable

variable {t u : CostModelTable}

/-- The tables have the same entries, or else their canonical texts are a
    collision of the digest. -/
def SameOrCollide (t u : CostModelTable) : Prop :=
  t.sameEntries u ∨
    Digest.Sha256.Collide (Text.Utf8.encode t.canonical) (Text.Utf8.encode u.canonical)

theorem sameOrCollide_iff : t.SameOrCollide u ↔ t.entries.SameOrCollide u.entries :=
  or_congr_left decide_eq_true_iff

theorem sameEntries_iff : t.sameEntries u ↔ ∀ name, t.entries.get? name = u.entries.get? name := by
  unfold sameEntries
  rw [decide_eq_true_iff]
  constructor
  · intro h name
    rw [h]
  · exact Entries.ext_get?

/-- The time of calibration is not in the canonical text. -/
theorem canonical_eq_of_sameEntries (h : t.sameEntries u) : t.canonical = u.canonical :=
  congrArg Entries.canonical (of_decide_eq_true h)

theorem fingerprint_eq_of_sameOrCollide (h : t.SameOrCollide u) :
    t.fingerprint = u.fingerprint := by
  rcases h with hsame | hcollide
  · exact congrArg Entries.fingerprint (of_decide_eq_true hsame)
  · exact hcollide.2

/-- Tables that are built from maps have the same entries if the maps give the
    same models, in whatever order and under whatever keys of the names. -/
theorem sameEntries_iff_of_ofMap {models models' : OrderedMap Datum (Option QuantizedModel)}
    {time time' : Option Text} {now now' : Timestamp} (ht : ofMap models time now = .ok t)
    (hu : ofMap models' time' now' = .ok u) :
    t.sameEntries u ↔ ∀ name, models.get? (.text name) = models'.get? (.text name) := by
  have hsome : Function.Injective (Option.map (some : QuantizedModel → _)) :=
    Option.map_injective (Option.some_injective _)
  rw [sameEntries_iff]
  apply forall_congr'
  intro name
  rw [← get?_of_ofMap ht, ← get?_of_ofMap hu, hsome.eq_iff]

/-- The canonical text identifies the entries: what model each name has, and
    nothing else of a table or of the map that it is built from.  The fingerprint
    identifies them up to a collision. -/
theorem canonical_eq_iff (t u : CostModelTable) (ht : ∀ name ∈ t.operations, name.IsString)
    (hu : ∀ name ∈ u.operations, name.IsString) :
    (t.canonical = u.canonical ↔ t.sameEntries u) ∧
    (t.sameEntries u ↔ ∀ name, t.entries.get? name = u.entries.get? name) ∧
    (∀ models models' time time' now now',
      ofMap models time now = .ok t → ofMap models' time' now' = .ok u →
        (t.canonical = u.canonical ↔
          ∀ name, models.get? (.text name) = models'.get? (.text name))) ∧
    (t.fingerprint = u.fingerprint ↔ t.SameOrCollide u) := by
  have hcanonical : t.canonical = u.canonical ↔ t.sameEntries u :=
    -- The canonical text can be read back, so it determines the entries.
    ⟨fun h => decide_eq_true (Entries.canonical_injective ht hu h), canonical_eq_of_sameEntries⟩
  refine ⟨hcanonical, sameEntries_iff, ?_, ?_⟩
  · intro models models' time time' now now' htable htable'
    rw [hcanonical]
    exact sameEntries_iff_of_ofMap htable htable'
  · refine ⟨fun h => ?_, fingerprint_eq_of_sameOrCollide⟩
    exact sameOrCollide_iff.2 (Entries.sameOrCollide_of_fingerprint_eq ht hu h)

/-- Two operations, one of them under a name that needs escapes. -/
def escapedModels : OrderedMap Datum (Option QuantizedModel) :=
  ⟨[(.text "é😀\n", some ⟨31, 32, by decide, by decide⟩),
    (.operation .hostMemCpy, some ⟨21, 22, by decide, by decide⟩)], by decide⟩

/-- The same operations the other way round, both of them under their names. -/
def reversedModels : OrderedMap Datum (Option QuantizedModel) :=
  ⟨[(.text "HostMemCpy", some ⟨21, 22, by decide, by decide⟩),
    (.text "é😀\n", some ⟨31, 32, by decide, by decide⟩)], by decide⟩

def twoTable : CostModelTable where
  entries :=
    ⟨[("HostMemCpy", ⟨21, 22, by decide, by decide⟩),
      ("é😀\n", ⟨31, 32, by decide, by decide⟩)], by decide, by decide⟩
  calibratedAt := "2024-03-01T00:00:00+00:00"
  dated := by decide

def laterTable : CostModelTable := ⟨twoTable.entries, "tomorrow", by decide⟩

/-- A single operation whose name reads like two entries. -/
def nestedTable : CostModelTable where
  entries :=
    ⟨[("HostMemCpy\":\x7b\"const_param\":21,\"lin_param\":22\x7d,\"é😀\n",
      ⟨31, 32, by decide, by decide⟩)], List.pairwise_singleton _ _, by decide⟩
  calibratedAt := twoTable.calibratedAt
  dated := twoTable.dated

/-- Neither the order of a map nor the time comes into the canonical text, and a
    name cannot pass for two. -/
theorem canonical_eq_reversedModels :
    ((∀ name ∈ twoTable.operations, name.IsString) ∧
      (∀ name ∈ laterTable.operations, name.IsString) ∧
      ∀ name ∈ nestedTable.operations, name.IsString) ∧
    ofMap escapedModels (some "2024-03-01T00:00:00+00:00") ⟨0, 0⟩ = .ok twoTable ∧
    ofMap reversedModels (some "tomorrow") ⟨0, 0⟩ = .ok laterTable ∧
    twoTable.canonical = laterTable.canonical ∧ twoTable.canonical ≠ nestedTable.canonical := by
  have htwo : ∀ name ∈ twoTable.operations, name.IsString :=
    List.forall_mem_cons.2 ⟨⟨_, rfl⟩, List.forall_mem_singleton.2 ⟨_, rfl⟩⟩
  have hnested : ∀ name ∈ nestedTable.operations, name.IsString :=
    List.forall_mem_singleton.2 ⟨_, rfl⟩
  have hlater := canonical_eq_iff twoTable laterTable htwo htwo
  have hapart := canonical_eq_iff twoTable nestedTable htwo hnested
  refine ⟨⟨htwo, htwo, hnested⟩, rfl, rfl, hlater.1.2 (by decide), ?_⟩
  intro heq
  exact absurd (hapart.1.1 heq) (by decide)

end CostModelTable
end CalibratedCosts
