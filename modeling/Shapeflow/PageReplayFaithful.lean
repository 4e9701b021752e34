import Shapeflow.PageReplay

set_option autoImplicit false

/-!
# What replaying recovers

The occurrence index is the join of the traces, in whatever order they are read;
a page is rebuilt exactly when the corpus still has the bytes the checkpoint
recorded, and neither the texts kept between pages nor the pages already filled
in are seen.
-/
namespace Shapeflow.Replay
open Evidence Py Seam
open PageH (VendorVisibleResult)
open Script Fallible

/-! ## The occurrence index -/

def pairsOf (row : TraceRow) : List (String × String) := row.occurrenceIds.zip row.docids

def Parallel (row : TraceRow) : Prop := row.docids.length = row.occurrenceIds.length

/-- No occurrence is of two documents. -/
def Functional (pairs : List (String × String)) : Prop := ∀ o x y, (o, x) ∈ pairs → (o, y) ∈ pairs → x = y

structure Indexes (index : OccurrenceIndex) (pairs : List (String × String)) : Prop where
  docid : ∀ o x, index.docidFor o = some x ↔ (o, x) ∈ pairs
  rows : index.rows = pairs.length

theorem indexes_empty : Indexes .empty [] := ⟨fun _ _ => ⟨nofun, nofun⟩, rfl⟩

theorem Indexes.functional {index : OccurrenceIndex} {pairs : List (String × String)} (h : Indexes index pairs) :
    Functional pairs := by
  intro o x y hx hy
  have hx := (h.docid o x).mpr hx
  rw [(h.docid o y).mpr hy] at hx
  exact (Option.some.inj hx).symm

/-- A step that adds `pairs` to an index: it fails when `good` does not hold, or when an occurrence would be of two
    documents. -/
structure Adds (add : OccurrenceIndex → Except IndexError OccurrenceIndex) (pairs : List (String × String))
    (good : Prop) : Prop where
  fits : ∀ {index old}, Indexes index old → good → Functional (old ++ pairs) → ∃ later, add index = .ok later
  added : ∀ {index old later}, Indexes index old → add index = .ok later → good ∧ Indexes later (old ++ pairs)

theorem adds_foldlM {α : Type} {f : OccurrenceIndex → α → Except IndexError OccurrenceIndex}
    {pairs : α → List (String × String)} {good : α → Prop} (hf : ∀ a, Adds (fun index => f index a) (pairs a) (good a))
    (xs : List α) : Adds (fun index => xs.foldlM f index) (xs.flatMap pairs) (∀ a ∈ xs, good a) := by
  induction xs with
  | nil =>
    refine ⟨fun {index old} _ _ _ => ⟨index, rfl⟩, fun {index old later} h hadd => ?_⟩
    cases hadd
    exact ⟨nofun, by rwa [List.flatMap_nil, List.append_nil]⟩
  | cons a rest ih =>
    refine ⟨fun {index old} h hgood hfun => ?_, fun {index old later} h hadd => ?_⟩
    · rw [List.flatMap_cons, ← List.append_assoc] at hfun
      have hfirst : Functional (old ++ pairs a) := fun o x y hx hy =>
        hfun o x y (List.mem_append_left _ hx) (List.mem_append_left _ hy)
      obtain ⟨mid, hmid⟩ := (hf a).fits h (hgood a List.mem_cons_self) hfirst
      obtain ⟨later, hlater⟩ := ih.fits ((hf a).added h hmid).2 (fun b hb => hgood b (List.mem_cons_of_mem a hb)) hfun
      exact ⟨later, by rw [List.foldlM_cons, hmid]; exact hlater⟩
    · rw [List.foldlM_cons] at hadd
      obtain ⟨mid, hmid, hadd⟩ := bind_ok.mp hadd
      obtain ⟨hgood, hindexes⟩ := (hf a).added h hmid
      obtain ⟨hothers, hlater⟩ := ih.added hindexes hadd
      refine ⟨List.forall_mem_cons.mpr ⟨hgood, hothers⟩, ?_⟩
      rwa [List.flatMap_cons, ← List.append_assoc]

theorem adds_addResult (p : String × String) : Adds (fun index => addResult index p) [p] True := by
  constructor
  · intro index old h _ hfun
    unfold addResult
    cases hget : index.docid.get? p.1 with
    | none => exact ⟨_, rfl⟩
    | some existing =>
      have hold := (h.docid p.1 existing).mp hget
      have heq : existing = p.2 := hfun p.1 existing p.2 (by simp [hold]) (by simp)
      simp only [heq, if_pos, Except.ok.injEq, exists_eq']
  · intro index old later h hadd
    refine ⟨trivial, ?_⟩
    unfold addResult at hadd
    cases hget : index.docid.get? p.1 with
    | none =>
      rw [hget] at hadd
      cases hadd
      refine ⟨fun o x => ?_, by simp [h.rows]⟩
      have hold := h.docid o x
      unfold OccurrenceIndex.docidFor at hold ⊢
      rw [Dict.get?_set, List.mem_append, List.mem_singleton, ← hold]
      split
      · rename_i ho
        subst ho
        rw [hget]
        constructor
        · rintro ⟨⟩
          exact .inr rfl
        · rintro (hnone | hp)
          · cases hnone
          · rw [← hp]
      · rename_i ho
        refine ⟨.inl, fun hcase => hcase.resolve_right fun hp => ho ?_⟩
        rw [← hp]
    | some existing =>
      rw [hget] at hadd
      simp only [] at hadd
      split at hadd
      · rename_i heq
        cases hadd
        refine ⟨fun o x => ?_, by simp [h.rows]⟩
        refine (h.docid o x).trans ⟨List.mem_append_left _, fun hmem => ?_⟩
        rcases List.mem_append.mp hmem with hmem | hmem
        · exact hmem
        · rw [List.mem_singleton.mp hmem]
          have hold := (h.docid p.1 existing).mp hget
          rwa [heq] at hold
      · cases hadd

theorem adds_addRow (row : TraceRow) : Adds (fun index => addRow index row) (pairsOf row) (Parallel row) := by
  have hresults := adds_foldlM adds_addResult (pairsOf row)
  rw [List.flatMap_singleton'] at hresults
  constructor
  · intro index old h hparallel hfun
    obtain ⟨later, hlater⟩ := hresults.fits h (fun _ _ => trivial) hfun
    refine ⟨later, ?_⟩
    rw [addRow, if_neg (fun hne => hne hparallel)]
    exact hlater
  · intro index old later h hadd
    simp only [addRow] at hadd
    split at hadd
    · cases hadd
    · rename_i hparallel
      exact ⟨not_not.mp hparallel, (hresults.added h hadd).2⟩

section
variable {γ : Type} {hash : γ → String} {traceOf : γ → Option (List TraceRow)}

/-- The trace in a blob, where it verifies and holds a cell's output. -/
def traceIn (hash : γ → String) (traceOf : γ → Option (List TraceRow)) (blob : ObjectStore γ × String) :
    List TraceRow :=
  match blob.1.getBytes hash blob.2 with
  | .ok raw => (traceOf raw).getD []
  | .error _ => []

def blobsOf (stores : List (ObjectStore γ × List String)) : List (ObjectStore γ × String) :=
  stores.flatMap fun s => s.2.map fun key => (s.1, key)

/-- Every search the stores have a trace of. -/
def searchesIn (hash : γ → String) (traceOf : γ → Option (List TraceRow))
    (stores : List (ObjectStore γ × List String)) : List TraceRow :=
  (blobsOf stores).flatMap (traceIn hash traceOf)

/-- What a blob needs to be read: a file named by a key, and rows that can be paired. -/
def Readable (hash : γ → String) (traceOf : γ → Option (List TraceRow)) (blob : ObjectStore γ × String) : Prop :=
  ObjectStore.isKey blob.2 ∧ ∀ row ∈ traceIn hash traceOf blob, Parallel row

theorem not_isKey_of_valueError {blob : ObjectStore γ × String}
    (h : blob.1.getBytes hash blob.2 = .error .valueError) : ¬ ObjectStore.isKey blob.2 := by
  intro hkey
  rw [ObjectStore.getBytes, if_pos hkey] at h
  split at h
  · cases h
  · cases h
  · split at h <;> cases h

theorem isKey_of_getBytes {blob : ObjectStore γ × String} {e : StoreError}
    (h : blob.1.getBytes hash blob.2 = .error e) (he : e ≠ .valueError) : ObjectStore.isKey blob.2 := by
  by_contra hkey
  rw [ObjectStore.getBytes, if_neg hkey] at h
  cases h
  exact he rfl

variable (hash traceOf)

theorem adds_addBlob (blob : ObjectStore γ × String) :
    Adds (fun index => addBlob hash traceOf index blob) ((traceIn hash traceOf blob).flatMap pairsOf)
      (Readable hash traceOf blob) := by
  have hrows := adds_foldlM adds_addRow (traceIn hash traceOf blob)
  constructor
  · rintro index old h ⟨hkey, hparallel⟩ hfun
    obtain ⟨later, hlater⟩ := hrows.fits h hparallel hfun
    unfold addBlob
    unfold traceIn at hlater
    cases hread : blob.1.getBytes hash blob.2 with
    | ok raw =>
      rw [hread] at hlater
      exact ⟨later, hlater⟩
    | error e =>
      cases e with
      | valueError => exact absurd hkey (not_isKey_of_valueError hread)
      | keyError => exact ⟨index, rfl⟩
      | corruptObject => exact ⟨index, rfl⟩
  · intro index old later h hadd
    unfold addBlob at hadd
    unfold Readable traceIn
    unfold traceIn at hrows
    cases hread : blob.1.getBytes hash blob.2 with
    | ok raw =>
      rw [hread] at hadd hrows
      obtain ⟨hgood, hlater⟩ := hrows.added h hadd
      exact ⟨⟨(ObjectStore.getBytes_ok.mp hread).1, hgood⟩, hlater⟩
    | error e =>
      rw [hread] at hadd
      cases e with
      | valueError => cases hadd
      | keyError =>
        cases hadd
        exact ⟨⟨isKey_of_getBytes hread nofun, nofun⟩, by rwa [List.flatMap_nil, List.append_nil]⟩
      | corruptObject =>
        cases hadd
        exact ⟨⟨isKey_of_getBytes hread nofun, nofun⟩, by rwa [List.flatMap_nil, List.append_nil]⟩

theorem adds_load (stores : List (ObjectStore γ × List String)) :
    Adds (fun index => (blobsOf stores).foldlM (addBlob hash traceOf) index)
      ((searchesIn hash traceOf stores).flatMap pairsOf) (∀ blob ∈ blobsOf stores, Readable hash traceOf blob) := by
  have h := adds_foldlM (adds_addBlob hash traceOf) (blobsOf stores)
  rwa [← List.flatMap_assoc] at h

/-- The index is the join of every trace in the stores: it is there when every blob can be read and no occurrence is
    of two documents, it knows the pairs of all of them and no others, and the order the stores and their files are
    walked in is not seen. -/
theorem loadOccurrenceIndex_joins (stores : List (ObjectStore γ × List String)) :
    (Returns (loadOccurrenceIndex hash traceOf stores) ↔
      (∀ blob ∈ blobsOf stores, Readable hash traceOf blob) ∧
        Functional ((searchesIn hash traceOf stores).flatMap pairsOf)) ∧
    ∀ index, loadOccurrenceIndex hash traceOf stores = .ok index →
      Indexes index ((searchesIn hash traceOf stores).flatMap pairsOf) ∧
      ∀ walked : List (ObjectStore γ × List String), (blobsOf walked).Perm (blobsOf stores) →
        ∃ other, loadOccurrenceIndex hash traceOf walked = .ok other ∧ other.rows = index.rows ∧
          ∀ o, other.docidFor o = index.docidFor o := by
  have hadds := adds_load hash traceOf stores
  refine ⟨⟨fun hreturns => ?_, fun h => hadds.fits indexes_empty h.1 h.2⟩, fun index hload => ?_⟩
  · obtain ⟨index, hload⟩ := hreturns
    obtain ⟨hreadable, hindexes⟩ := hadds.added indexes_empty hload
    exact ⟨hreadable, hindexes.functional⟩
  · obtain ⟨hreadable, hindexes⟩ := hadds.added indexes_empty hload
    rw [List.nil_append] at hindexes
    refine ⟨hindexes, fun walked hperm => ?_⟩
    have hsame : ((searchesIn hash traceOf walked).flatMap pairsOf).Perm
        ((searchesIn hash traceOf stores).flatMap pairsOf) := (hperm.flatMap_right _).flatMap_right _
    have hwalked := adds_load hash traceOf walked
    have hfunctional : Functional ((searchesIn hash traceOf walked).flatMap pairsOf) := fun o x y hx hy =>
      hindexes.functional o x y (hsame.mem_iff.mp hx) (hsame.mem_iff.mp hy)
    obtain ⟨other, hother⟩ :=
      hwalked.fits indexes_empty (fun blob hblob => hreadable blob (hperm.mem_iff.mp hblob)) hfunctional
    obtain ⟨-, hothers⟩ := hwalked.added indexes_empty hother
    rw [List.nil_append] at hothers
    refine ⟨other, hother, ?_, fun o => ?_⟩
    · rw [hothers.rows, hindexes.rows, hsame.length_eq]
    · refine Option.ext fun x => ?_
      rw [hothers.docid, hindexes.docid, hsame.mem_iff]

end

/-! ## Without the kept texts -/

section
variable (r : PageReconstructor)

def resolveAfresh (result : VendorVisibleResult) : Except BudgetError PageResolution :=
  let rawContentId := result.rawContentId.getD ""
  let occurrenceId := result.sourceOccurrenceId.getD ""
  if rawContentId = "" then .ok ⟨"", occurrenceId, .snippetOnly, "", ""⟩
  else
    match r.occurrences.docidFor occurrenceId with
    | none => .ok ⟨rawContentId, occurrenceId, .noDocid, "", ""⟩
    | some docid => do
      let text ← truncatedText r docid
      pure (resolution r rawContentId occurrenceId docid text)

def rebuildAfresh (stored : StoredCheckpoint) : Except BudgetError BatchReconstruction := do
  let pages ← (pagesOf stored.checkpoint).mapM (resolveAfresh r)
  pure (batchOf stored pages)

theorem simulates_resolve (result : VendorVisibleResult) :
    Simulates (Recalls (truncatedText r)) Eq (resolveAfresh r result) (resolve r result) := by
  unfold resolve resolveAfresh
  simp only []
  split
  · exact simulates_pure rfl
  · cases r.occurrences.docidFor (result.sourceOccurrenceId.getD "") with
    | none => exact simulates_pure rfl
    | some docid =>
      refine simulates_bind (simulates_memoise (truncatedText r) docid) fun text found hsame => ?_
      rw [hsame]
      exact simulates_pure rfl

theorem simulates_rebuild (stored : StoredCheckpoint) :
    Simulates (Recalls (truncatedText r)) Eq (rebuildAfresh r stored) (rebuild r stored) := by
  refine simulates_bind (simulates_forEach_eq (simulates_resolve r) _) fun pages found hsame => ?_
  rw [hsame]
  exact simulates_pure rfl

/-! ## Pages -/

/-- The corpus still has the bytes that a page was recorded with. -/
structure Recovered (result : VendorVisibleResult) (docid text : String) : Prop where
  named : r.occurrences.docidFor (result.sourceOccurrenceId.getD "") = some docid
  left : truncatedText r docid = .ok (some text)
  digest : contentId r.sha256Hex text = result.rawContentId.getD ""

variable {r}

variable {result : VendorVisibleResult}

theorem resolveAfresh_snippet (h : result.rawContentId.getD "" = "") :
    resolveAfresh r result = .ok ⟨"", result.sourceOccurrenceId.getD "", .snippetOnly, "", ""⟩ := if_pos h

/-- A page whose bytes are still there is verified. -/
theorem Recovered.resolves {docid text : String} (h : Recovered r result docid text)
    (hne : result.rawContentId.getD "" ≠ "") :
    resolveAfresh r result =
      .ok ⟨result.rawContentId.getD "", result.sourceOccurrenceId.getD "", .verified, docid, text⟩ := by
  simp only [resolveAfresh, if_neg hne, h.named, h.left, ok_bind, resolution, h.digest, ne_eq, not_true_eq_false,
    if_false]
  rfl

/-- A usable page with content carries the bytes it was recorded with. -/
theorem recovered_of_usable (hne : result.rawContentId.getD "" ≠ "") {page : PageResolution}
    (h : resolveAfresh r result = .ok page) (husable : page.usable = true) :
    page = ⟨result.rawContentId.getD "", result.sourceOccurrenceId.getD "", .verified, page.docid, page.text⟩ ∧
      Recovered r result page.docid page.text := by
  unfold resolveAfresh at h
  simp only [if_neg hne] at h
  split at h
  · cases h
    cases husable
  · rename_i docid hnamed
    obtain ⟨text, hleft, hpage⟩ := bind_ok.mp h
    cases hpage
    unfold resolution at husable ⊢
    cases text with
    | none => cases husable
    | some text =>
      simp only [] at husable ⊢
      split at husable
      · cases husable
      · rename_i hdigest
        rw [if_neg hdigest]
        exact ⟨rfl, hnamed, hleft, not_not.mp hdigest⟩

/-- A batch is whole exactly when each of its pages is a snippet or has its bytes recovered. -/
theorem complete_iff {stored : StoredCheckpoint} {batch : BatchReconstruction}
    (h : rebuildAfresh r stored = .ok batch) :
    batch.complete = true ↔ ∀ result ∈ pagesOf stored.checkpoint, result.rawContentId.getD "" ≠ "" →
      ∃ docid text, Recovered r result docid text := by
  obtain ⟨pages, hpages, hbatch⟩ := bind_ok.mp h
  cases hbatch
  have hall := mapM_forall₂.mp hpages
  change pages.all PageResolution.usable = true ↔ _
  rw [List.all_eq_true]
  constructor
  · intro husable result hresult hne
    obtain ⟨page, hpage, hresolved⟩ := exists_of_forall₂ hall.flip hresult
    exact ⟨page.docid, page.text, (recovered_of_usable hne hresolved (husable page hpage)).2⟩
  · intro hrecovered page hpage
    obtain ⟨result, hresult, hresolved⟩ := exists_of_forall₂ hall hpage
    by_cases hne : result.rawContentId.getD "" = ""
    · rw [resolveAfresh_snippet hne] at hresolved
      cases hresolved
      rfl
    · obtain ⟨docid, text, hrec⟩ := hrecovered result hresult hne
      rw [hrec.resolves hne] at hresolved
      cases hresolved
      rfl

theorem recovered_of_verified {stored : StoredCheckpoint} {batch : BatchReconstruction}
    (h : rebuildAfresh r stored = .ok batch) {page : PageResolution} (hpage : page ∈ batch.verified) :
    truncatedText r page.docid = .ok (some page.text) ∧ contentId r.sha256Hex page.text = page.rawContentId := by
  obtain ⟨pages, hpages, hbatch⟩ := bind_ok.mp h
  cases hbatch
  obtain ⟨hmem, hverified⟩ := List.mem_filter.mp hpage
  obtain ⟨result, -, hresolved⟩ := mem_mapM hpages hmem
  by_cases hne : result.rawContentId.getD "" = ""
  · rw [resolveAfresh_snippet hne] at hresolved
    cases hresolved
    simp at hverified
  · have husable : page.usable = true := by simpa [PageResolution.usable] using Or.inl (of_decide_eq_true hverified)
    obtain ⟨hsame, hrec⟩ := recovered_of_usable hne hresolved husable
    rw [hsame]
    exact ⟨hrec.left, hrec.digest⟩

/-- The page of a whole batch is among those its strategy is given. -/
theorem mem_textById {stored : StoredCheckpoint} {batch : BatchReconstruction} (h : rebuildAfresh r stored = .ok batch)
    (hcomplete : batch.complete = true) {result : VendorVisibleResult} (hresult : result ∈ pagesOf stored.checkpoint)
    (hne : result.rawContentId.getD "" ≠ "") : result.rawContentId.getD "" ∈ batch.textById.keys := by
  obtain ⟨docid, text, hrec⟩ := (complete_iff h).mp hcomplete result hresult hne
  obtain ⟨pages, hpages, hbatch⟩ := bind_ok.mp h
  cases hbatch
  obtain ⟨page, hpage, hresolved⟩ := exists_of_forall₂ (mapM_forall₂.mp hpages).flip hresult
  rw [hrec.resolves hne] at hresolved
  cases hresolved
  refine Dict.mem_keys_ofPairs.mpr (List.mem_map.mpr ⟨_, List.mem_map.mpr ⟨_, List.mem_filter.mpr ⟨hpage, ?_⟩, rfl⟩, rfl⟩)
  rfl

/-! ## The walk -/

/-- The texts the corpus has under the budget. -/
def bodies (r : PageReconstructor) : Set String := {text | ∃ docid, truncatedText r docid = .ok (some text)}

/-- What the walk keeps is right: texts that were left of their documents, pages that are such texts. -/
structure Sound (r : PageReconstructor) (s : WalkStore) : Prop where
  texts : Recalls (truncatedText r) s.texts
  pages : s.pages.Files r.sha256Hex (bodies r)

def rebuilt (r : PageReconstructor) (stored : StoredCheckpoint) :
    Except BudgetError (StoredCheckpoint × BatchReconstruction) := do
  let batch ← rebuildAfresh r stored
  pure (stored, batch)

/-- What the turn for a checkpoint makes of its batch, which is whole if the corpus still has the bytes recorded for
    each page: a trial if it is and has none yet, which reads, for each page with content, a text of the corpus that
    has the digest recorded for the page. -/
structure Replayed (r : PageReconstructor) (done : StoredCheckpoint → Bool)
    (rebuilt : StoredCheckpoint × BatchReconstruction) (trial : Option Trial) : Prop where
  whole : rebuilt.2.complete = true ↔ ∀ result ∈ pagesOf rebuilt.1.checkpoint, result.rawContentId.getD "" ≠ "" →
    ∃ docid text, Recovered r result docid text
  skipped : trial = none ↔ ¬ rebuilt.2.complete ∨ done rebuilt.1
  same : ∀ t ∈ trial, t.stored = rebuilt.1 ∧ t.batch = rebuilt.2
  reads : ∀ t ∈ trial, ∀ result ∈ pagesOf rebuilt.1.checkpoint, result.rawContentId.getD "" ≠ "" →
    t.pages.textFor (result.rawContentId.getD "") ∈ bodies r ∧
      contentId r.sha256Hex (t.pages.textFor (result.rawContentId.getD "")) = result.rawContentId.getD ""

theorem simulates_replay (done : StoredCheckpoint → Bool) (stored : StoredCheckpoint) :
    Simulates (Sound r) (Replayed r done) (rebuilt r stored) (replay r done stored) := by
  intro s hs
  obtain ⟨q, texts, hrun, htexts, hagree⟩ := simulates_rebuild r stored s.texts hs.texts
  unfold replay rebuilt
  rw [hrun]
  generalize hafresh : rebuildAfresh r stored = afresh at hagree
  cases hagree with
  | error e => exact ⟨.error e, _, rfl, ⟨htexts, hs.pages⟩, .error e⟩
  | @ok batch found hsame =>
    subst hsame
    simp only []
    split
    · rename_i hskip
      refine ⟨_, _, rfl, ⟨htexts, hs.pages⟩, .ok ⟨complete_iff hafresh, ⟨fun _ => ?_, fun _ => rfl⟩, nofun, nofun⟩⟩
      simpa using hskip
    · rename_i hgo
      have hfiles : (s.pages.prefill batch.textById batch.occurrenceById).Files r.sha256Hex (bodies r) := by
        refine hs.pages.prefill fun id text hget => ?_
        obtain ⟨page, hpage, heq⟩ := List.mem_map.mp (Dict.mem_of_get?_ofPairs hget)
        cases heq
        obtain ⟨hleft, hdigest⟩ := recovered_of_verified hafresh hpage
        exact ⟨⟨page.docid, hleft⟩, hdigest⟩
      have hkept : ¬ (¬ batch.complete = true ∨ done stored = true) := by simpa using hgo
      refine ⟨_, _, rfl, ⟨htexts, hfiles⟩, .ok ⟨complete_iff hafresh, ⟨nofun, fun hskip => absurd hskip hkept⟩, ?_, ?_⟩⟩
      · rintro t ⟨⟩
        exact ⟨rfl, rfl⟩
      · rintro t ⟨⟩ result hresult hne
        have hcomplete : batch.complete = true := by
          by_contra hpart
          exact hgo (.inl hpart)
        obtain ⟨text, hget⟩ := Dict.mem_keys_iff.mp (mem_textById hafresh hcomplete hresult hne)
        obtain ⟨found, hfound⟩ : ∃ found, (s.pages.prefill batch.textById batch.occurrenceById).text.get?
            (result.rawContentId.getD "") = some found := by
          rw [PageRegistry.prefill, get?_fill, hget]
          cases s.pages.text.get? (result.rawContentId.getD "") with
          | none => exact ⟨text, rfl⟩
          | some old => exact ⟨old, rfl⟩
        rw [textFor_of_get? hfound]
        exact hfiles _ found hfound

/-- One document, found under the occurrence it was served as. -/
def sampleReconstructor : PageReconstructor where
  sha256Hex := fun _ => "digest"
  corpus := ⟨Dict.empty.set "d1" ⟨"body", "u"⟩, []⟩
  budget := ⟨100, 100⟩
  tokenizer := none
  occurrences := ⟨Dict.empty.set "o1" "d1", 1⟩

def sampleCheckpoint : StoredCheckpoint :=
  ⟨"c1", ⟨"task", "researcher", 1, [("call", [⟨0, "u", "t", "s", some "digest", some "o1"⟩])], none, "envelope"⟩⟩

end

end Shapeflow.Replay
