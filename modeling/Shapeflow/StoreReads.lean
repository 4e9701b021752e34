import Shapeflow.CheckpointRoundTrip
import Shapeflow.Continuation

set_option autoImplicit false

/-!
# Reads by content address

A read of a store compares the document with the digest it records, never with the
digest it was asked for.
-/
namespace Shapeflow.Checkpoints
open Py Canonical Utf8

/-- Whatever is read at a digest has that digest. -/
def Honest {α : Type} (digestOf : α → Except IdError String) (read : String → Except ReadError α) (digest : String) :
    Prop :=
  ∀ object, read digest = .ok object → digestOf object = .ok digest

/-- The document's own digest is the given one: the digest it records, or that of its fields where it
    records none. -/
def Names {α : Type} (digestOf : α → Except IdError String) (rebuild : Json → Except ReadError α)
    (recordedIn : Json → Except ReadError Json) (body : Json) (digest : String) : Prop :=
  ∃ recorded, recordedIn body = .ok recorded ∧
    (recorded.truthy = true → recorded = .str (pyStr digest)) ∧
    (recorded.truthy = false → ∃ object, rebuild body = .ok object ∧ digestOf object = .ok digest)

section
variable {α : Type} (digestOf : α → Except IdError String) (rebuild : Json → Except ReadError α)
  (recordedIn : Json → Except ReadError Json)

/-- Rebuilt, and verified against what it records. -/
def accept (body : Json) : Except ReadError α := do
  let rebuilt ← rebuild body
  let recorded ← recordedIn body
  verified digestOf recorded rebuilt

theorem accept_ok {body : Json} {object : α} :
    accept digestOf rebuild recordedIn body = .ok object ↔ rebuild body = .ok object ∧
      ∃ recorded, recordedIn body = .ok recorded ∧
        (recorded.truthy = true → ∃ digest, digestOf object = .ok digest ∧ recorded = .str (pyStr digest)) := by
  unfold accept
  simp only [Fallible.bind_ok, verified_ok]
  constructor
  · rintro ⟨rebuilt, hrebuild, recorded, hrecorded, rfl, hdigest⟩
    exact ⟨hrebuild, recorded, hrecorded, hdigest⟩
  · rintro ⟨hrebuild, recorded, hrecorded, hdigest⟩
    exact ⟨object, hrebuild, recorded, hrecorded, rfl, hdigest⟩

/-- An accepted object has the digest that its document names. -/
theorem digest_iff_names {body : Json} {object : α} (h : accept digestOf rebuild recordedIn body = .ok object)
    (digest : String) : digestOf object = .ok digest ↔ Names digestOf rebuild recordedIn body digest := by
  obtain ⟨hrebuild, recorded, hrecorded, hdigest⟩ := (accept_ok digestOf rebuild recordedIn).mp h
  constructor
  · intro hobject
    refine ⟨recorded, hrecorded, fun htruthy => ?_, fun _ => ⟨object, hrebuild, hobject⟩⟩
    obtain ⟨own, hown, hsame⟩ := hdigest htruthy
    rw [hobject] at hown
    rw [hsame, Except.ok.inj hown]
  · rintro ⟨recorded', hrecorded', hnamed, hfields⟩
    rw [hrecorded] at hrecorded'
    cases hrecorded'
    cases htruthy : recorded.truthy with
    | true =>
      obtain ⟨own, hown, hsame⟩ := hdigest htruthy
      rw [hnamed htruthy] at hsame
      rw [hown, pyStr_injective (Json.str.inj hsame)]
    | false =>
      obtain ⟨object', hrebuild', hobject'⟩ := hfields htruthy
      rw [hrebuild] at hrebuild'
      rw [Except.ok.inj hrebuild']
      exact hobject'

theorem honest_iff (codec : Codec) (disk : Disk) (digest : String) :
    Honest digestOf (fun d => readFile codec disk d >>= accept digestOf rebuild recordedIn) digest ↔
      ∀ body, readFile codec disk digest = .ok body → (accept digestOf rebuild recordedIn body).isOk = true →
        Names digestOf rebuild recordedIn body digest := by
  constructor
  · intro h body hbody haccepted
    cases hrun : accept digestOf rebuild recordedIn body with
    | error e =>
      rw [hrun] at haccepted
      cases haccepted
    | ok object =>
      apply (digest_iff_names digestOf rebuild recordedIn hrun digest).mp
      exact h object (Fallible.bind_ok.mpr ⟨body, hbody, hrun⟩)
  · intro h object hread
    obtain ⟨body, hbody, hrun⟩ := Fallible.bind_ok.mp hread
    apply (digest_iff_names digestOf rebuild recordedIn hrun digest).mpr
    exact h body hbody (by rw [hrun]; rfl)

end

/-- Both stores return an object of the digest asked for exactly when the document in its file, if it is
    accepted, names that digest. -/
theorem reads_honest_iff (codec : Codec) (disk : Disk) (digest : String) :
    (Honest (·.digest codec) (get codec disk) digest ↔
      ∀ body, readFile codec disk digest = .ok body → (fromDocument codec body).isOk = true →
        Names (·.digest codec) (rebuild codec) recordedDigest body digest) ∧
    (Honest (·.digest codec) (Continuation.get codec disk) digest ↔
      ∀ body, readFile codec disk digest = .ok body → (Continuation.fromDocument codec body).isOk = true →
        Names (·.digest codec) (Continuation.rebuild codec) (Continuation.recordedDigest codec) body digest) :=
  ⟨honest_iff (·.digest codec) (rebuild codec) recordedDigest codec disk digest,
    honest_iff (·.digest codec) (Continuation.rebuild codec) (Continuation.recordedDigest codec) codec disk digest⟩

/-- One document, in the file of every digest. -/
def misfiled : Disk := fun _ =>
  some (utf8 (canonicalText sampleCodec.floats (document (documentFields sampleCheckpoint sampleDigest))))

theorem readFile_canonical {codec : Codec} {disk : Disk} {digest : String} {v : Json} (hv : Admitted codec.floats v)
    (hdisk : disk (path digest) = some (utf8 (canonicalText codec.floats v))) :
    readFile codec disk digest = .ok (sortKeys v) := by
  have hload : loadBytes codec.floats (utf8 (canonicalText codec.floats v)) = some (sortKeys v) := by
    unfold loadBytes
    rw [decode_utf8]
    exact loads_canonicalText hv
  unfold readFile
  rw [hdisk, Option.elim_some, hload]
  rfl

theorem sample_document_admitted :
    Admitted sampleCodec.floats (document (documentFields sampleCheckpoint sampleDigest)) := by
  apply admitted_document
  · simp [DistinctFields, documentFields, sampleCheckpoint, Checkpoint.fields, CCheckpoint.fields]
  · simp only [documentFields, List.forall_mem_cons]
    exact ⟨admitted_text _ _, admitted_text _ _, admitted_fields sample_admitted⟩

theorem reads_honest_iff_own : Honest (·.digest sampleCodec) (get sampleCodec misfiled) sampleDigest := by
  apply (reads_honest_iff sampleCodec misfiled sampleDigest).1.mpr
  intro body hbody _
  rw [@readFile_canonical sampleCodec misfiled sampleDigest _ sample_document_admitted rfl] at hbody
  cases hbody
  refine ⟨.str (pyStr sampleDigest), ?_, fun _ => rfl, fun h => absurd h (by decide)⟩
  rw [recordedDigest, digest_document keeps_sortKeys]
  rfl

/-- A checkpoint is read under a digest that is not its own. -/
theorem misfiled_read : ¬ Honest (·.digest sampleCodec) (get sampleCodec misfiled) "other" := by
  have hdigest : (sampleCheckpoint.map sortKeys).digest sampleCodec = .ok sampleDigest :=
    (digest_sorted sample_admitted).trans sample_digest
  have hread : get sampleCodec misfiled "other" = .ok (sampleCheckpoint.map sortKeys) := by
    unfold get
    rw [@readFile_canonical sampleCodec misfiled "other" _ sample_document_admitted rfl]
    exact fromDocument_document keeps_sortKeys sampleCodec hdigest
  intro h
  have hother : (sampleCheckpoint.map sortKeys).digest sampleCodec = .ok "other" := h _ hread
  rw [hdigest] at hother
  exact absurd (Except.ok.inj hother) (by decide)

end Shapeflow.Checkpoints
