import Shapeflow.SearchSeam

set_option autoImplicit false

/-!
# One view of a page

What the graph reads of a served page and what a page strategy finds under the
id of a checkpoint are the same bytes, whatever was searched before and since.
-/
namespace Shapeflow.Seam
open Utf8 Evidence
open PageH (VendorVisibleResult)
open PageStrategy (PageSelectionStrategy sourceGroup spansFromPage)
open Script

section
variable {sha256Hex : ByteArray → String} {world : Set String}

/-! ## The registry -/

/-- No two of the texts have the same id. -/
def Apart (sha256Hex : ByteArray → String) (world : Set String) : Prop := Set.InjOn (contentId sha256Hex) world

/-- Every page on file is one of `world`, under the digest of its bytes. -/
def PageRegistry.Files (sha256Hex : ByteArray → String) (world : Set String) (pages : PageRegistry) : Prop :=
  ∀ id text, pages.text.get? id = some text → text ∈ world ∧ contentId sha256Hex text = id

/-- What is on file stays as it is. -/
def PageRegistry.Grown (pages later : PageRegistry) : Prop :=
  (∀ id text, pages.text.get? id = some text → later.text.get? id = some text) ∧
    ∀ id occurrence, pages.occurrence.get? id = some occurrence → later.occurrence.get? id = some occurrence

theorem PageRegistry.Grown.refl (pages : PageRegistry) : pages.Grown pages := ⟨fun _ _ => id, fun _ _ => id⟩

theorem PageRegistry.Grown.trans {p q r : PageRegistry} (h : p.Grown q) (h' : q.Grown r) : p.Grown r :=
  ⟨fun id text hget => h'.1 id text (h.1 id text hget), fun id o hget => h'.2 id o (h.2 id o hget)⟩

theorem files_empty : PageRegistry.empty.Files sha256Hex world := nofun

theorem get?_setDefault_of_some {d : Dict String String} {k j : String} {v w : String} (h : d.get? j = some w) :
    (d.setDefault k v).get? j = some w := by
  rw [Dict.get?_setDefault, h]
  rfl

variable {pages : PageRegistry} {text occurrenceId : String}

theorem grown_record : pages.Grown (pages.record sha256Hex text occurrenceId) := by
  unfold PageRegistry.record
  split
  · exact .refl pages
  · exact ⟨fun _ _ => get?_setDefault_of_some, fun _ _ => get?_setDefault_of_some⟩

theorem PageRegistry.Files.record (h : pages.Files sha256Hex world) (htext : text ≠ "" → text ∈ world) :
    (pages.record sha256Hex text occurrenceId).Files sha256Hex world := by
  unfold PageRegistry.record
  split
  · exact h
  · rename_i hne
    intro id found hget
    simp only [Dict.get?_setDefault, Option.or_eq_some_iff] at hget
    rcases hget with hold | ⟨-, hnew⟩
    · exact h id found hold
    · split at hnew
      · rename_i hid
        cases hnew
        exact ⟨htext hne, hid.symm⟩
      · cases hnew

/-- A page put on file is found there: another text under its id would be another page of the world. -/
theorem text_record (happart : Apart sha256Hex world) (h : pages.Files sha256Hex world) (hne : text ≠ "")
    (htext : text ∈ world) :
    (pages.record sha256Hex text occurrenceId).text.get? (contentId sha256Hex text) = some text := by
  rw [PageRegistry.record, if_neg hne]
  simp only [Dict.get?_setDefault, if_pos]
  cases hold : pages.text.get? (contentId sha256Hex text) with
  | none => rfl
  | some old =>
    obtain ⟨hworld, hid⟩ := h _ old hold
    rw [happart hworld htext hid]
    rfl

theorem textFor_of_get? {id : String} (h : pages.text.get? id = some text) : pages.textFor id = text := by
  rw [PageRegistry.textFor, h]
  rfl

/-- Only what was not there is filled in. -/
theorem get?_fill (d e : Dict String String) (k : String) : (fill d e).get? k = (d.get? k).or (e.get? k) := by
  suffices hfold : ∀ (entries : List (String × String)) (d : Dict String String), (entries.map Prod.fst).Nodup →
      (entries.foldl (fun d x => d.setDefault x.1 x.2) d).get? k =
        (d.get? k).or ((entries.find? fun x => x.1 = k).map Prod.snd) from hfold e.entries d e.distinct
  intro entries
  induction entries with
  | nil => simp
  | cons x entries ih =>
    intro d hnodup
    rw [List.map_cons, List.nodup_cons] at hnodup
    rw [List.foldl_cons, ih _ hnodup.2, Dict.get?_setDefault, Option.or_assoc]
    congr 1
    by_cases hx : x.1 = k
    · rw [if_pos hx.symm, List.find?_cons_of_pos (by simpa using hx)]
      rfl
    · rw [if_neg (Ne.symm hx), List.find?_cons_of_neg (by simpa using hx)]
      rfl

/-- Entries under their own digests may be filled in. -/
theorem PageRegistry.Files.prefill (h : pages.Files sha256Hex world) {textById occurrenceById : Dict String String}
    (hnew : ∀ id text, textById.get? id = some text → text ∈ world ∧ contentId sha256Hex text = id) :
    (pages.prefill textById occurrenceById).Files sha256Hex world := by
  intro id text hget
  rw [PageRegistry.prefill, get?_fill, Option.or_eq_some_iff] at hget
  rcases hget with hold | ⟨-, hget⟩
  · exact h id text hold
  · exact hnew id text hget

end

/-! ## The seam -/

section
variable {β ε : Type} {sha256Hex : ByteArray → String} {world : Set String} {seam : BudgetedBackend β ε}
  {budget : SharedContentBudget}

/-- What searching may do to the backend's own state. -/
def Reaches (seam : BudgetedBackend β ε) : β → β → Prop :=
  Relation.ReflTransGen fun a b => ∃ query maxResults, b = (seam.backend query maxResults).after a

/-- A record with which the backend has answered a query since `start`. -/
def Offered (seam : BudgetedBackend β ε) (start : β) (record : SearchRecord) (now : β) : Prop :=
  ∃ query maxResults a records b, Reaches seam start a ∧ seam.backend query maxResults a = (.ok records, b) ∧
    record ∈ records ∧ Reaches seam b now

/-- `raw` is what the shared budget leaves of the page of a record. -/
def Bounds (seam : BudgetedBackend β ε) (budget : SharedContentBudget) (record : SearchRecord) (raw : String) : Prop :=
  ∃ shared, applySharedBudget (record.rawContent.getD "").toList budget seam.tokenizer = .ok shared ∧
    raw = String.ofList shared.text

/-- Every page the backend may offer is, once bounded, a text of `world`. -/
def Serves (seam : BudgetedBackend β ε) (budget : SharedContentBudget) (world : Set String) : Prop :=
  ∀ query maxResults a records b, seam.backend query maxResults a = (.ok records, b) → ∀ record ∈ records,
    ∀ raw, Bounds seam budget record raw → raw ≠ "" → raw ∈ world

/-- How searching moves the store. -/
structure Moved (sha256Hex : ByteArray → String) (seam : BudgetedBackend β ε) (world : Set String)
    (s t : SeamStore β) : Prop where
  files : s.pages.Files sha256Hex world → t.pages.Files sha256Hex world
  grown : s.pages.Grown t.pages
  noted : ∀ occurrenceId ∈ s.contentTruncations.keys, occurrenceId ∈ t.contentTruncations.keys
  reaches : Reaches seam s.backend t.backend

/-- A store on the way: its pages are of `world`, its backend has been searched since `start`. -/
structure Searching (sha256Hex : ByteArray → String) (seam : BudgetedBackend β ε) (world : Set String) (start : β)
    (s : SeamStore β) : Prop where
  files : s.pages.Files sha256Hex world
  reached : Reaches seam start s.backend

variable {start : β}

theorem Moved.refl (s : SeamStore β) : Moved sha256Hex seam world s s := ⟨id, .refl _, fun _ => id, .refl⟩

theorem Moved.trans {s t u : SeamStore β} (h : Moved sha256Hex seam world s t) (h' : Moved sha256Hex seam world t u) :
    Moved sha256Hex seam world s u :=
  ⟨fun hs => h'.files (h.files hs), h.grown.trans h'.grown, fun o ho => h'.noted o (h.noted o ho),
    h.reaches.trans h'.reaches⟩

theorem moved_frame : Frame (Searching sha256Hex seam world start) (Moved sha256Hex seam world) where
  refl := Moved.refl
  trans := Moved.trans
  keeps hs h := ⟨h.files hs.files, hs.reached.trans h.reaches⟩

/-- What holds of a result made from a record: its page is bounded and on file, and a cut is noted. -/
structure MadeFrom (sha256Hex : ByteArray → String) (seam : BudgetedBackend β ε) (budget : SharedContentBudget)
    (record result : SearchRecord) (s : SeamStore β) : Prop where
  same : result = { record with rawContent := result.rawContent }
  bounds : ∀ raw, result.rawContent = some raw → raw ≠ "" → Bounds seam budget record raw
  noted : ∀ raw, result.rawContent = some raw → raw ≠ record.rawContent.getD "" →
    result.occurrenceId ∈ s.contentTruncations.keys
  onFile : ∀ raw, result.rawContent = some raw → raw ≠ "" →
    s.pages.text.get? (contentId sha256Hex raw) = some raw

theorem MadeFrom.moved {record result : SearchRecord} {s t : SeamStore β}
    (h : MadeFrom sha256Hex seam budget record result s) (hmoved : Moved sha256Hex seam world s t) :
    MadeFrom sha256Hex seam budget record result t :=
  ⟨h.same, h.bounds, fun raw hraw hne => hmoved.noted _ (h.noted raw hraw hne),
    fun raw hraw hne => hmoved.grown.1 _ _ (h.onFile raw hraw hne)⟩

theorem searching_backend (query : String) (maxResults : ℤ) :
    Gives (Searching sha256Hex seam world start) (Moved sha256Hex seam world)
      (fun records s => ∀ record ∈ records, Offered seam start record s.backend)
      (onBackend (seam.backend query maxResults)) := by
  intro s hs
  have hstep : Reaches seam s.backend ((seam.backend query maxResults).after s.backend) :=
    .single ⟨query, maxResults, rfl⟩
  unfold after at hstep ⊢
  unfold onBackend
  cases hrun : seam.backend query maxResults s.backend with
  | mk r b =>
    rw [hrun] at hstep
    cases r with
    | ok records =>
      refine ⟨⟨id, .refl _, fun _ => id, hstep⟩, fun records' t h => ?_⟩
      cases h
      exact fun record hrecord => ⟨query, maxResults, s.backend, records, b, hs.reached, hrun, hrecord, .refl⟩
    | error e => exact ⟨⟨id, .refl _, fun _ => id, hstep⟩, nofun⟩

/-- A bounded page is noted when it lost something. -/
theorem bounded_reason {page : List Char} {tokenizer : Option Tokenizer} {shared : SharedContent}
    (h : applySharedBudget page budget tokenizer = .ok shared) : shared.reason ≠ .none ↔ shared.text ≠ page := by
  cases tokenizer with
  | none =>
    cases h
    simp only [uncut, decide_eq_true_eq]
    rw [← take_ne_iff]
    split_ifs <;> simp_all
  | some tokenizer =>
    have hbounds := applySharedBudget_bounds tokenizer budget page
    rw [h] at hbounds
    exact hbounds.reason

theorem noted_contentTruncations (s : SeamStore β) (occurrenceId : String) (shared : SharedContent) :
    (∀ o ∈ s.contentTruncations.keys, o ∈ (s.noted occurrenceId shared).contentTruncations.keys) ∧
      (shared.reason ≠ .none → occurrenceId ∈ (s.noted occurrenceId shared).contentTruncations.keys) := by
  unfold SeamStore.noted
  split
  · rename_i hnone
    exact ⟨fun _ => id, fun h => absurd hnone h⟩
  · exact ⟨fun o ho => Dict.mem_keys_set.mpr (.inl ho), fun _ => Dict.mem_keys_set.mpr (.inr rfl)⟩

theorem noted_pages (s : SeamStore β) (occurrenceId : String) (shared : SharedContent) :
    (s.noted occurrenceId shared).pages = s.pages := by
  unfold SeamStore.noted
  split <;> rfl

theorem noted_backend (s : SeamStore β) (occurrenceId : String) (shared : SharedContent) :
    (s.noted occurrenceId shared).backend = s.backend := by
  unfold SeamStore.noted
  split <;> rfl

theorem bounded_gives (happart : Apart sha256Hex world) (hbudget : seam.contentBudget = some budget)
    {record : SearchRecord} (hserved : ∀ raw, Bounds seam budget record raw → raw ≠ "" → raw ∈ world) :
    Gives (Searching sha256Hex seam world start) (Moved sha256Hex seam world)
      (MadeFrom sha256Hex seam budget record) (bounded sha256Hex seam record) := by
  unfold bounded
  rw [hbudget]
  simp only []
  split
  · rename_i hempty
    refine gives_pure moved_frame fun s _ => ⟨rfl, ?_, ?_, ?_⟩
    · intro raw hraw hne
      rw [hraw] at hempty
      exact absurd hempty hne
    · intro raw hraw hne
      rw [hraw] at hne
      exact absurd rfl hne
    · intro raw hraw hne
      rw [hraw] at hempty
      exact absurd hempty hne
  · cases hshared : applySharedBudget (record.rawContent.getD "").toList budget seam.tokenizer with
    | error e => exact gives_raise moved_frame _
    | ok shared =>
      have hbounds : Bounds seam budget record (String.ofList shared.text) := ⟨shared, hshared, rfl⟩
      have hworld := hserved _ hbounds
      intro s hs
      obtain ⟨hkept, hnoted⟩ := noted_contentTruncations s record.occurrenceId shared
      have hpages := noted_pages s record.occurrenceId shared
      refine ⟨⟨fun hfiles => ?_, ?_, hkept, ?_⟩, fun result t hrun => ?_⟩
      · change ((s.noted _ shared).pages.record _ _ _).Files sha256Hex world
        rw [hpages]
        exact hfiles.record hworld
      · change s.pages.Grown ((s.noted _ shared).pages.record _ _ _)
        rw [hpages]
        exact grown_record
      · change Reaches seam s.backend (s.noted _ shared).backend
        rw [noted_backend]
        exact .refl
      · cases hrun
        refine ⟨rfl, ?_, ?_, ?_⟩
        · intro raw hraw _
          cases hraw
          exact hbounds
        · intro raw hraw hcut
          cases hraw
          refine hnoted ((bounded_reason hshared).mpr fun heq => hcut ?_)
          rw [heq, String.ofList_toList]
        · intro raw hraw hne
          cases hraw
          change ((s.noted _ shared).pages.record _ _ _).text.get? _ = _
          rw [hpages]
          exact text_record happart hs.files hne (hworld hne)

theorem Offered.moved {record : SearchRecord} {s t : SeamStore β} (h : Offered seam start record s.backend)
    (hmoved : Moved sha256Hex seam world s t) : Offered seam start record t.backend := by
  obtain ⟨query, maxResults, a, records, b, hreach, hrun, hrecord, hnow⟩ := h
  exact ⟨query, maxResults, a, records, b, hreach, hrun, hrecord, hnow.trans hmoved.reaches⟩

/-- A result the graph is handed: made from a record of the backend, but for a page it did not ask for. -/
def Handed (sha256Hex : ByteArray → String) (seam : BudgetedBackend β ε) (budget : SharedContentBudget) (start : β)
    (result : SearchRecord) (s : SeamStore β) : Prop :=
  ∃ record made, Offered seam start record s.backend ∧ MadeFrom sha256Hex seam budget record made s ∧
    (result = made ∨ result = { made with rawContent := none })

theorem Handed.moved {result : SearchRecord} {s t : SeamStore β} (h : Handed sha256Hex seam budget start result s)
    (hmoved : Moved sha256Hex seam world s t) : Handed sha256Hex seam budget start result t := by
  obtain ⟨record, made, hoffered, hmade, hresult⟩ := h
  exact ⟨record, made, hoffered.moved hmoved, hmade.moved hmoved, hresult⟩

/-- A store on the way, after the backend has answered with `records`. -/
def Offering (sha256Hex : ByteArray → String) (seam : BudgetedBackend β ε) (world : Set String) (start : β)
    (records : List SearchRecord) (s : SeamStore β) : Prop :=
  Searching sha256Hex seam world start s ∧ ∀ record ∈ records, Offered seam start record s.backend

theorem offering_frame (records : List SearchRecord) :
    Frame (Offering sha256Hex seam world start records) (Moved sha256Hex seam world) :=
  moved_frame.and fun _ _ hall hmoved record hrecord => (hall record hrecord).moved hmoved

theorem search_gives (happart : Apart sha256Hex world) (hserves : Serves seam budget world)
    (hbudget : seam.contentBudget = some budget) (query : String) (maxResults : ℤ) :
    Gives (Searching sha256Hex seam world start) (Moved sha256Hex seam world)
      (fun results s => ∀ result ∈ results, ∃ record, Offered seam start record s.backend ∧
        MadeFrom sha256Hex seam budget record result s) (seam.search sha256Hex query maxResults) := by
  unfold BudgetedBackend.search
  refine gives_ite (fun _ => gives_raise moved_frame _) fun _ => gives_ite (fun _ => gives_raise moved_frame _) fun _ => ?_
  refine gives_bind moved_frame (searching_backend query maxResults) fun records => ?_
  refine gives_ite (fun _ => gives_raise (offering_frame records) _) fun _ => ?_
  have hturns : Gives (Offering sha256Hex seam world start records) (Moved sha256Hex seam world)
      (fun results s => List.Forall₂ (fun record result => Offered seam start record s.backend ∧
        MadeFrom sha256Hex seam budget record result s) records results) (forEach (bounded sha256Hex seam) records) := by
    refine gives_forEach (offering_frame records) (fun record result s t h hmoved => ⟨h.1.moved hmoved, h.2.moved hmoved⟩)
      fun record hrecord s hs => ?_
    have hoffered := hs.2 record hrecord
    obtain ⟨asked, maxAsked, a, answered, b, -, hrun, hmem, -⟩ := hoffered
    have hserved := hserves asked maxAsked a answered b hrun record hmem
    obtain ⟨hmoved, hmade⟩ := bounded_gives happart hbudget hserved s hs.1
    refine ⟨hmoved, fun result t hresult => ⟨?_, hmade result t hresult⟩⟩
    rw [after_of_ok hresult] at hmoved
    exact (hs.2 record hrecord).moved hmoved
  refine hturns.mono fun results t hmade result hresult => ?_
  obtain ⟨record, -, hrest⟩ := exists_of_forall₂ hmade hresult
  exact ⟨record, hrest⟩

theorem answerQuery_gives (happart : Apart sha256Hex world) (hserves : Serves seam budget world)
    (hbudget : seam.contentBudget = some budget) (call : SearchCall) (query : String) :
    Gives (Searching sha256Hex seam world start) (Moved sha256Hex seam world)
      (fun answer s => ∀ result ∈ answer.2, Handed sha256Hex seam budget start result s)
      (answerQuery sha256Hex seam call query) := by
  refine gives_bind moved_frame (search_gives happart hserves hbudget query call.maxResults) fun records => ?_
  rintro s ⟨-, hrecords⟩
  have hmoved : Moved sha256Hex seam world s { s with queries := s.queries ++ [eventOf call query records] } :=
    ⟨id, .refl _, fun _ => id, .refl⟩
  refine ⟨hmoved, fun answer t hrun => ?_⟩
  cases hrun
  intro result hresult
  obtain ⟨made, hmade, rfl⟩ := List.mem_map.mp hresult
  obtain ⟨record, hoffered, hfrom⟩ := hrecords made hmade
  refine ⟨record, made, hoffered, hfrom.moved hmoved, ?_⟩
  split
  · exact .inl rfl
  · exact .inr rfl

theorem frozenSearch_gives (happart : Apart sha256Hex world) (hserves : Serves seam budget world)
    (hbudget : seam.contentBudget = some budget) (call : SearchCall) :
    Gives (Searching sha256Hex seam world start) (Moved sha256Hex seam world)
      (fun answers s => ∀ answer ∈ answers, ∀ result ∈ answer.2, Handed sha256Hex seam budget start result s)
      (frozenSearch sha256Hex seam call) := by
  have hturns : Gives (Searching sha256Hex seam world start) (Moved sha256Hex seam world)
      (fun answers s => List.Forall₂ (fun _ answer => ∀ result ∈ answer.2,
        Handed sha256Hex seam budget start result s) call.queries answers) (frozenSearch sha256Hex seam call) :=
    gives_forEach moved_frame (fun _ answer s t h hmoved result hresult => (h result hresult).moved hmoved)
      fun query _ => answerQuery_gives happart hserves hbudget call query
  refine hturns.mono fun answers t hanswers answer hanswer => ?_
  obtain ⟨query, -, hhanded⟩ := exists_of_forall₂ hanswers hanswer
  exact hhanded

/-- The calls of a cell, and the results they hand to the graph. -/
theorem serve_handed (happart : Apart sha256Hex world) (hserves : Serves seam budget world)
    (hbudget : seam.contentBudget = some budget) (calls : List SearchCall) {s : SeamStore β}
    (hs : Searching sha256Hex seam world start s) :
    Moved sha256Hex seam world s (serve sha256Hex seam calls s).2 ∧
      ∀ result ∈ (serve sha256Hex seam calls s).1,
        Handed sha256Hex seam budget start result (serve sha256Hex seam calls s).2 := by
  induction calls generalizing s with
  | nil => exact ⟨.refl s, nofun⟩
  | cons call calls ih =>
    obtain ⟨hfirst, hhanded⟩ := frozenSearch_gives happart hserves hbudget call s hs
    obtain ⟨hrest, hothers⟩ := ih (s := (frozenSearch sha256Hex seam call s).2) (moved_frame.keeps hs hfirst)
    refine ⟨hfirst.trans hrest, fun result hresult => ?_⟩
    rcases List.mem_append.mp hresult with hnow | hlater
    · refine Handed.moved ?_ hrest
      cases hrun : frozenSearch sha256Hex seam call s with
      | mk r t =>
        rw [hrun] at hnow
        cases r with
        | error e => cases hnow
        | ok answers =>
          obtain ⟨answer, hanswer, hmem⟩ := List.mem_flatMap.mp hnow
          exact hhanded answers t hrun answer hanswer result hmem
    · exact hothers result hlater

theorem serve_append (calls later : List SearchCall) (s : SeamStore β) :
    serve sha256Hex seam (calls ++ later) s =
      ((serve sha256Hex seam calls s).1 ++ (serve sha256Hex seam later (serve sha256Hex seam calls s).2).1,
        (serve sha256Hex seam later (serve sha256Hex seam calls s).2).2) := by
  induction calls generalizing s with
  | nil => rfl
  | cons call calls ih => simp only [List.cons_append, serve, ih, List.append_assoc]

/-! ## One view -/

/-- What vendor reads of a page that is within the budget: all of it. -/
theorem visibleRaw_of_bounds {maxContentLength : ℕ} (hlength : budget.maxChars ≤ maxContentLength)
    {record result : SearchRecord} {raw : String} (hraw : result.rawContent = some raw) (hne : raw ≠ "")
    (hbounds : Bounds seam budget record raw) : visibleRaw maxContentLength result = some raw := by
  obtain ⟨shared, hshared, rfl⟩ := hbounds
  have hchars : shared.text.length ≤ budget.maxChars := by
    cases htokenizer : seam.tokenizer with
    | none =>
      rw [htokenizer] at hshared
      cases hshared
      exact List.length_take_le _ _
    | some tokenizer =>
      rw [htokenizer] at hshared
      have hpage := applySharedBudget_bounds tokenizer budget (record.rawContent.getD "").toList
      rw [hshared] at hpage
      exact hpage.chars
  rw [visibleRaw, hraw]
  simp only [hne, if_false, String.toList_ofList, List.take_of_length_le (hchars.trans hlength)]

/-- The page strategies of a cell read its registry as it is when they run. -/
def Reads (sha256Hex : ByteArray → String) (pages : PageRegistry) (strategy : PageSelectionStrategy) : Prop :=
  strategy.env.digests.sha256Hex = sha256Hex ∧ strategy.rawTextFor = pages.textFor ∧
    strategy.occurrenceFor = pages.occurrenceFor

/-- A group over one page: its text, and its spans under the occurrence they were offered as. -/
structure Over (strategy : PageSelectionStrategy) (raw id occurrenceId : String) (group : PageStrategy.Group) :
    Prop where
  texts : group.snapshotTexts = Dict.ofPairs [(id, raw)]
  spans : group.spans = spansFromPage strategy raw.toList id occurrenceId
  occurrences : group.occurrenceIds = [occurrenceId]

theorem sourceGroup_over {strategy : PageSelectionStrategy} {pages : PageRegistry}
    (hreads : Reads sha256Hex pages strategy) {result : VendorVisibleResult} {raw occurrenceId : String}
    (hid : result.rawContentId = some (contentId sha256Hex raw))
    (hget : pages.text.get? (contentId sha256Hex raw) = some raw)
    (hoccurrence : result.sourceOccurrenceId = some occurrenceId) (hne : occurrenceId ≠ "") :
    Over strategy raw (contentId sha256Hex raw) occurrenceId (sourceGroup strategy result) := by
  obtain ⟨rfl, htext, -⟩ := hreads
  have hsource : PageH.textOrElse result.sourceOccurrenceId
      (strategy.occurrenceFor (contentId strategy.env.digests.sha256Hex raw)) = occurrenceId := by
    rw [hoccurrence]
    exact if_neg hne
  unfold sourceGroup
  simp only [hid, htext, textFor_of_get? hget, hsource]
  exact ⟨rfl, rfl, rfl⟩

/-- Every result handed to the graph with a page comes from a record of the backend with that page cut to the
    shared budget, and a cut is noted; vendor reads all of what is left; and a page strategy that runs at any
    later moment finds those bytes under the checkpoint's id and makes its spans of them. -/
theorem one_view (happart : Apart sha256Hex world) (hserves : Serves seam budget world)
    (hbudget : seam.contentBudget = some budget) {maxContentLength : ℕ} (hlength : budget.maxChars ≤ maxContentLength)
    (calls later : List SearchCall) {s : SeamStore β} (hs : s.pages.Files sha256Hex world) {result : SearchRecord}
    (hresult : result ∈ (serve sha256Hex seam calls s).1) {raw : String} (hraw : result.rawContent = some raw)
    (hne : raw ≠ "") :
    let t := (serve sha256Hex seam (calls ++ later) s).2
    (∃ record, Offered seam s.backend record t.backend ∧ result = { record with rawContent := some raw } ∧
      Bounds seam budget record raw ∧
      (raw ≠ record.rawContent.getD "" → result.occurrenceId ∈ t.contentTruncations.keys)) ∧
    visibleRaw maxContentLength result = some raw ∧
    ∀ strategy, Reads sha256Hex t.pages strategy → ∀ order, result.occurrenceId ≠ "" →
      Over strategy raw (contentId sha256Hex raw) result.occurrenceId
        (sourceGroup strategy (visibleResult sha256Hex maxContentLength order result)) := by
  intro t
  have hsearching : Searching sha256Hex seam world s.backend s := ⟨hs, .refl⟩
  obtain ⟨hmoved, hhanded⟩ := serve_handed happart hserves hbudget calls hsearching
  obtain ⟨hlater, -⟩ := serve_handed happart hserves hbudget later (moved_frame.keeps hsearching hmoved)
  have ht : t = (serve sha256Hex seam later (serve sha256Hex seam calls s).2).2 := by
    simp only [t, serve_append]
  obtain ⟨record, made, hoffered, hmade, hcase⟩ := (hhanded result hresult).moved hlater
  rw [← ht] at hoffered hmade
  obtain rfl : result = made := by
    rcases hcase with rfl | rfl
    · rfl
    · cases hraw
  have hbounds := hmade.bounds raw hraw hne
  have hvisible := visibleRaw_of_bounds hlength hraw hne hbounds
  refine ⟨⟨record, hoffered, ?_, hbounds, hmade.noted raw hraw⟩, hvisible, ?_⟩
  · rw [← hraw]
    exact hmade.same
  · intro strategy hreads order hoccurrence
    refine sourceGroup_over hreads ?_ (hmade.onFile raw hraw hne) rfl hoccurrence
    rw [visibleResult, hvisible]
    rfl

def sampleRecord : SearchRecord := ⟨"u", "t", "s", some "body", .finite 0, "o1"⟩

/-- One page, for every query. -/
def sampleSeam : BudgetedBackend Unit Unit := ⟨fun _ _ => pure [sampleRecord], some ⟨3, 3⟩, none, 1⟩

def sampleCall : SearchCall := ⟨["q"], 1, "general", true⟩

theorem serves_sample : Serves sampleSeam ⟨3, 3⟩ {"bod"} := by
  intro query maxResults a records b hrun record hrecord raw hbounds _
  cases hrun
  obtain ⟨shared, hshared, rfl⟩ := hbounds
  rw [List.mem_singleton.mp hrecord] at hshared
  cases hshared
  rfl

theorem one_view_sample :
    ∃ result ∈ (serve (fun _ => "digest") sampleSeam [sampleCall] ⟨(), .empty, Dict.empty, []⟩).1,
      result.rawContent = some "bod" ∧ visibleRaw 5 result = some "bod" := by
  have happart : Apart (fun _ => "digest") ({"bod"} : Set String) := Set.injOn_singleton ..
  have hresult : { sampleRecord with rawContent := some "bod" } ∈
      (serve (fun _ => "digest") sampleSeam [sampleCall] ⟨(), .empty, Dict.empty, []⟩).1 :=
    List.mem_cons_self
  exact ⟨_, hresult, rfl, (one_view happart serves_sample rfl (by decide) [sampleCall] [] files_empty hresult rfl
    (by decide)).2.1⟩

end

end Shapeflow.Seam
