/-
  How many candidates a run comes to.

  Candidates come from a list of files, or from a table whose ids no job changes
  (`perform_sameIds`).  So a run finds no more of them than it has counted in the beginning,
  and those it has found and those to come together are never more (`Supplied`).
-/
import SongLibrary.Proofs.Reconcile.Pacing
import SongLibrary.Proofs.Reconcile.Revising
import SongLibrary.Proofs.SongTable.Pulling

namespace SongLibrary.Reconcile.Run

variable {s : Setup} {w : Services} {files : FileTree} {r r' r₁ : Run} {n : Nat}

/-! ## The ids of a table -/

/-- The ids that the table of the library has. -/
def ids (r : Run) : List Int64 :=
  (r.primary.map fun primary => primary.table.rows.map Row.id).getD []

/-- There is no new table, and that of the library has the ids that it had. -/
structure SameIds (r r' : Run) : Prop where
  target : r'.target = none
  ids : r'.ids = r.ids

/-- A song whose id the table of the library has. -/
def Has (r : Run) (song : Song) : Prop :=
  ∃ id ∈ r.ids, song.id = some id

variable (r) in
theorem store_sameIds (song : Song) (ht : r.target = none) (hsong : r.Has song) (existed : Bool) :
    SameIds r (r.store w song existed) := by
  obtain ⟨r₁, counter, hstored, -, heq⟩ := r.store_cases w song existed
  rw [heq]
  cases hstored with
  | failed _ _ _ => exact ⟨ht, rfl⟩
  | added _ _ _ htarget _ =>
    rw [ht] at htarget
    cases htarget
  | @saved primary table _ _ _ hprimary hsave =>
    refine ⟨ht, ?_⟩
    obtain ⟨id, hid, hsome⟩ := hsong
    simp only [ids, hprimary, Option.map_some, Option.getD_some, List.mem_map] at hid
    have hrows := SongTable.rows_of_save? hsome hid hsave
    have hsame : table.rows.map Row.id = primary.table.rows.map Row.id := by
      rw [hrows, List.map_map]
      exact List.map_congr_left fun row _ => SongTable.replaceRow_id row id song
    simp only [ids, count, hprimary, Option.map_some, Option.getD_some, hsame]

/-! ### One job for each mode -/

section Jobs

variable {job : Job} {song : Song}

theorem writeTags_sameIds (job : Job) (hmode : s.mode = .writeTags) (ht : r.target = none) :
    SameIds r (r.writeTags w job) := by
  have hworks := writeTags_books (w := w) (r := r) job hmode
  have htables : (r.writeTags w job).books.target = r.books.target ∧
      (r.writeTags w job).books.primary = r.books.primary := by
    generalize (r.writeTags w job).books = b at hworks ⊢
    cases hworks with
    | idle => exact ⟨rfl, rfl⟩
    | written _ _ _ _ => exact ⟨rfl, rfl⟩
    | tracks hother _ _ _ _ => simp [hmode] at hother
    | read hother _ _ _ _ _ _ => simp [hmode] at hother
    | reorganized hother _ _ _ => simp [hmode] at hother
  have hprimary : (r.writeTags w job).primary = r.primary := htables.2
  exact ⟨htables.1.trans ht, by simp only [ids, hprimary]⟩

theorem updateFromTracks_sameIds (ht : r.target = none) (he : job.existing = some song)
    (hsong : r.Has song) : SameIds r (r.updateFromTracks w job) := by
  simp only [updateFromTracks, he]
  split
  · exact ⟨ht, rfl⟩
  · next fields _ =>
    obtain ⟨tags, htags⟩ := takeOver_tags w fields.toList song
    rw [htags]
    split
    · exact ⟨ht, rfl⟩
    · have hstored := r.asked.store_sameIds (w := w) { song with tags } ht hsong true
      exact ⟨hstored.target, hstored.ids⟩

theorem reorganize_sameIds (ht : r.target = none) (he : job.existing = some song)
    (hsong : r.Has song) : SameIds r (r.reorganize s w job) := by
  simp only [reorganize, he]
  obtain ⟨song', r₁, hrenamed, heq⟩ := r.rename_cases s w song job.path (s.bypass? job.relative) true
  -- The record that comes out of the move still has the id that the table knows it by.
  have hmoved : SameIds r (r.rename s w song job.path (s.bypass? job.relative) true).2 ∧
      (r.rename s w song job.path (s.bypass? job.relative) true).1.id = song.id := by
    rcases heq with heq | ⟨counter, -, heq⟩ <;> rw [heq] <;> cases hrenamed <;>
      exact ⟨⟨ht, rfl⟩, rfl⟩
  generalize r.rename s w song job.path (s.bypass? job.relative) true = result at hmoved ⊢
  obtain ⟨⟨htarget, hids⟩, hid⟩ := hmoved
  split
  · exact ⟨htarget, hids⟩
  · have hknown : result.2.Has result.1 := by
      rw [Has, hids, hid]
      exact hsong
    have hstored := store_sameIds (w := w) _ _ htarget hknown true
    exact ⟨hstored.target, hstored.ids.trans hids⟩

theorem updateFromFile_sameIds (hmode : s.mode = .updateTags) (ht : r.target = none)
    (he : job.existing = some song) (hsong : r.Has song) : SameIds r (r.updateFromFile s w job) := by
  have hbefore : s.recordBefore? job = some song := by
    rw [Setup.recordBefore?_of_ne (by simp [hmode]), he]
  have hcases := r.updateFromFile_cases s w job
  generalize r.updateFromFile s w job = r' at hcases
  cases hcases with
  | noTags moment => exact ⟨ht, rfl⟩
  | @kept _ _ date tags moment song' r₁ _ _ hmoved =>
    obtain ⟨rfl, rfl⟩ := hmoved.resolve_left (by simp [hmode, Mode.allowsMoves])
    split
    · exact ⟨ht, rfl⟩
    · have hid : (s.recordWith job date tags).id = song.id := by
        rw [Setup.recordWith_id, hbefore]
        rfl
      have hknown : ({ r with moment } : Run).Has (s.recordWith job date tags) := by
        rw [Has, hid]
        exact hsong
      have hstored := store_sameIds (w := w) { r with moment } _ ht hknown
        (s.recordBefore? job).isSome
      exact ⟨hstored.target, hstored.ids⟩

/-- **Doing the job of a song that the table has leaves its ids as they are.** -/
theorem perform_sameIds (hmode : s.mode.origin = .table .byId) (ht : r.target = none)
    (he : job.existing = some song) (hsong : r.Has song) : SameIds r (r.perform s w job) := by
  unfold perform
  cases hcase : s.mode with
  | writeTags => exact writeTags_sameIds job hcase ht
  | updateItunes => exact updateFromTracks_sameIds ht he hsong
  | reorganize => exact reorganize_sameIds ht he hsong
  | updateTags => exact updateFromFile_sameIds hcase ht he hsong
  | rebuild => simp [hcase, Mode.origin] at hmode
  | checkNew => simp [hcase, Mode.origin] at hmode
  | compact checkNew => cases checkNew <;> simp [hcase, Mode.origin] at hmode

end Jobs

/-! ## The queue -/

/-- Doing a job takes the first one out of the queue. -/
theorem performNext_queue (r : Run) :
    (r.performNext s w).queue.toList = r.queue.toList.tail ∧
      (r.performNext s w).history.taken = r.queue.toList.head?.toList ++ r.history.taken := by
  unfold performNext
  split
  · next hpop =>
    rw [Queue.pop?_eq_none_iff.1 hpop]
    exact ⟨rfl, rfl⟩
  · next job queue hpop =>
    have hkept := perform_kept s w { r with queue, history.taken := job :: r.history.taken } job
    rw [hkept.queue, hkept.taken, Queue.toList_of_pop? hpop]
    exact ⟨rfl, rfl⟩

/-! ## The supply of candidates -/

/-- The number of candidates still to come. -/
def ahead (r : Run) : Nat :=
  match r.source with
  | none => 0
  | some (.files paths) => paths.length
  | some (.table visit) => (visit.rest ((r.primary.map OpenTable.table).getD .empty)).length

theorem ahead_visit {visit : SongTable.Visit} {primary : OpenTable}
    (hsource : r.source = some (.table visit)) (hprimary : r.primary = some primary) :
    r.ahead = (visit.rest primary.table).length := by
  simp only [ahead, hsource, hprimary, Option.map_some, Option.getD_some]

/-- The origin that a source belongs to. -/
def originOf : Source → Origin
  | .files _ => .fileTree
  | .table visit => .table visit.order

/-- The candidates found and those to come are no more than were counted, and the songs of a
    visit by id are those of the table. -/
structure Supplied (s : Setup) (r : Run) : Prop where
  bound : r.history.found.length + r.ahead ≤ r.total
  origin : ∀ source, r.source = some source → s.mode.origin = originOf source
  page : ∀ visit, s.mode.origin = .table .byId → r.source = some (.table visit) →
    ∀ song ∈ visit.page, r.Has song
  jobs : s.mode.origin = .table .byId →
    ∀ job ∈ r.queue.toList, ∃ song, job.existing = some song ∧ r.Has song

theorem ids_eq (r : Run) :
    r.ids = ((r.primary.map OpenTable.table).getD .empty).rows.map Row.id := by
  unfold ids
  cases r.primary <;> rfl

theorem has_row {primary : OpenTable} {row : Row} (hprimary : r.primary = some primary)
    (hrow : row ∈ primary.table.rows) : r.Has row.song := by
  refine ⟨row.id, ?_, rfl⟩
  simp only [ids, hprimary, Option.map_some, Option.getD_some]
  exact List.mem_map_of_mem hrow

theorem has_congr (hids : r'.ids = r.ids) : r'.Has = r.Has := by
  funext song
  rw [Has, hids, Has]

theorem nextCandidate_error_source {failure : Failure}
    (h : r.nextCandidate s w = (r', .error failure)) : r'.source = r.source := by
  unfold nextCandidate at h
  split at h
  · cases h
  · cases h
  · cases h
  · split at h
    · cases h
      rfl
    · split at h
      · cases h
        rfl
      · dsimp only at h
        split at h <;> cases h

/-- Looking at a candidate leaves the others to come, and the job it may put into the queue
    has the record of the candidate. -/
theorem classify_jobs (s : Setup) (w : Services) (r : Run) (c : Candidate) :
    (r.classify s w c).1.source = r.source ∧ (r.classify s w c).1.primary = r.primary ∧
      ∃ job? : Option Job, (r.classify s w c).1.queue.toList = r.queue.toList ++ job?.toList ∧
        ∀ job ∈ job?, ∀ song, c.record = some song → s.mode ≠ .rebuild →
          job.existing = some song := by
  rcases hclassify : r.classify s w c with ⟨r', failure | _⟩
  · dsimp only
    rw [classify_eq] at hclassify
    split at hclassify
    · cases hclassify
    · split at hclassify
      · cases hclassify
      · obtain ⟨_, hkeeps⟩ := (r.see c).existingRecord_keeps s w c
        split at hclassify
        · next hexisting =>
          cases hclassify
          rw [hexisting] at hkeeps
          dsimp only at hkeeps
          rw [hkeeps]
          exact ⟨rfl, rfl, none, by simp [see, count], by simp⟩
        · cases hclassify
  · have hsettles := classify_books hclassify
    generalize hbooks : r'.books = b' at hsettles
    have hsource : r'.source = b'.source := congrArg Books.source hbooks
    have hprimary : r'.primary = b'.primary := congrArg Books.primary hbooks
    have hqueue : r'.queue.toList = b'.jobs := congrArg Books.jobs hbooks
    dsimp only
    rw [hsource, hprimary, hqueue]
    -- A job has the record of its candidate, which the mode has looked at.
    cases hsettles with
    | idle => exact ⟨rfl, rfl, none, (List.append_nil _).symm, by simp⟩
    | copied _ _ _ _ => exact ⟨rfl, rfl, none, (List.append_nil _).symm, by simp⟩
    | queuedNew relative hnone _ =>
      refine ⟨rfl, rfl, some _, rfl, fun job _ song hsong hne => ?_⟩
      rcases hnone with hmode | ⟨hnone, -⟩
      · exact absurd hmode hne
      · rw [hnone] at hsong
        cases hsong
    | @queuedOld song' relative hrecord _ _ =>
      refine ⟨rfl, rfl, some _, rfl, fun job hjob song hsong _ => ?_⟩
      obtain rfl := Option.some.inj hjob
      rcases hrecord with hown | ⟨hnone, -⟩
      · exact hown.symm.trans hsong
      · rw [hnone] at hsong
        cases hsong

namespace Supplied

/-- What matters are the candidates, the queue and the table. -/
theorem congr (h : Supplied s r) (hfound : r'.history.found = r.history.found)
    (hsource : r'.source = r.source) (hprimary : r'.primary = r.primary)
    (htotal : r'.total = r.total) (hqueue : r'.queue.toList = r.queue.toList) : Supplied s r' := by
  have hhas : r'.Has = r.Has := has_congr (by rw [ids_eq, ids_eq, hprimary])
  have hahead : r'.ahead = r.ahead := by rw [ahead, hsource, hprimary, ahead]
  exact ⟨by rw [hfound, hahead, htotal]; exact h.bound, hsource ▸ h.origin,
    by rw [hsource, hhas]; exact h.page, by rw [hqueue, hhas]; exact h.jobs⟩

/-- A run may be without candidates to come. -/
theorem exhaust (h : Supplied s r) : Supplied s { r with source := none } :=
  ⟨Nat.le_trans (Nat.le_add_right _ _) h.bound, fun _ hno => (by cases hno),
    fun _ _ hno => (by cases hno), h.jobs⟩

theorem control (h : Supplied s r) (message : Control) : Supplied s (r.control message) := by
  rcases r.control_cases message with heq | heq <;> rw [heq]
  · exact h
  · exact h.exhaust.congr rfl rfl rfl rfl (Queue.toList_close r.queue)

/-! ### Candidates -/

/-- The next candidate is one of those that were to come. -/
theorem next {c : Candidate} (h : Supplied s r) (hnext : r.nextCandidate s w = (r₁, .ok (some c))) :
    Supplied s r₁ ∧ r₁.history.found.length + r₁.ahead < r₁.total ∧
      (s.mode.origin = .table .byId → ∃ song, c.record = some song ∧ r₁.Has song) := by
  obtain ⟨source, hbooks, htakes⟩ := nextCandidate_books hnext
  obtain ⟨hfound, htotal⟩ : r₁.history.found = r.history.found ∧ r₁.total = r.total := by
    obtain ⟨_, _, hkeeps⟩ := r.nextCandidate_keeps s w
    rw [hnext] at hkeeps
    rw [show r₁ = _ from hkeeps]
    exact ⟨rfl, rfl⟩
  have hprimary : r₁.primary = r.primary := congrArg Books.primary hbooks
  have hqueue : r₁.queue.toList = r.queue.toList := congrArg Books.jobs hbooks
  have hsource : r₁.source = some source := congrArg Books.source hbooks
  have hhas : r₁.Has = r.Has := has_congr (by rw [ids_eq, ids_eq, hprimary])
  have hjobs := h.jobs
  rw [← hqueue, ← hhas] at hjobs
  -- The candidate is one of those to come, and counts as found once it is looked at.
  cases htakes with
  | @file path paths hold =>
    have horigin := h.origin _ hold
    have hahead : r.ahead = r₁.ahead + 1 := by
      rw [ahead, show r.source = _ from hold, ahead, hsource]
      rfl
    have hbound := h.bound
    refine ⟨⟨by rw [hfound, htotal]; omega, fun _ heq => ?_, fun _ hmode => ?_, hjobs⟩,
      by rw [hfound, htotal]; omega, fun hmode => ?_⟩
    · rw [hsource] at heq
      cases heq
      exact horigin
    · rw [hmode] at horigin
      cases horigin
    · rw [hmode] at horigin
      cases horigin
  | @visited visit visit' primary song hold hopen hvisit =>
    obtain ⟨hrest, horder, -⟩ := SongTable.Visit.rest_of_next hvisit
    have hahead : r.ahead = r₁.ahead + 1 := by
      rw [ahead_visit hold hopen, ahead_visit hsource (hprimary.trans hopen), hrest, List.length_cons]
    have hbound := h.bound
    have hmem : s.mode.origin = .table .byId → ∀ x ∈ song :: visit'.page, r₁.Has x := by
      intro hmode x hx
      rw [hhas]
      rcases SongTable.Visit.mem_of_next hvisit hx with hpage | ⟨row, hrow, rfl⟩
      · exact h.page _ hmode hold x hpage
      · exact has_row hopen hrow
    refine ⟨⟨by rw [hfound, htotal]; omega, fun _ heq => ?_, fun _ hmode heq x hx => ?_, hjobs⟩,
      by rw [hfound, htotal]; omega, fun hmode => ⟨song, rfl, hmem hmode song (by simp)⟩⟩
    · rw [hsource] at heq
      cases heq
      rw [h.origin _ hold, originOf, originOf, horder]
    · rw [hsource] at heq
      cases heq
      exact hmem hmode x (List.mem_cons_of_mem _ hx)

/-- A candidate that is looked at has been found, and its job has its record. -/
theorem classify {c : Candidate} (h : Supplied s r)
    (hroom : r.history.found.length + r.ahead < r.total)
    (hrecord : s.mode.origin = .table .byId → ∃ song, c.record = some song ∧ r.Has song) :
    Supplied s (r.classify s w c).1 := by
  have hfound := classify_found (s := s) (w := w) (r := r) c
  have htotal := (classify_looks (s := s) (w := w) (r := r) c).quiet.total
  obtain ⟨hsource, hprimary, job?, hqueue, hjobs⟩ := classify_jobs s w r c
  have hhas : (r.classify s w c).1.Has = r.Has := has_congr (by rw [ids_eq, ids_eq, hprimary])
  have hahead : (r.classify s w c).1.ahead = r.ahead := by rw [ahead, hsource, hprimary, ahead]
  refine ⟨?_, hsource ▸ h.origin, by rw [hsource, hhas]; exact h.page, ?_⟩
  · rw [hfound, hahead, htotal, List.length_cons]
    omega
  · intro hmode job hjob
    rw [hhas]
    rw [hqueue] at hjob
    rcases List.mem_append.1 hjob with hold | hnew
    · exact h.jobs hmode job hold
    · obtain ⟨song, hsong, hknown⟩ := hrecord hmode
      refine ⟨song, hjobs job (Option.mem_toList.1 hnew) song hsong fun hrebuild => ?_, hknown⟩
      rw [hrebuild] at hmode
      cases hmode

/-- Taking candidates finds some of those that were to come. -/
theorem pull (h : Supplied s r) (n : Nat) : Supplied s (Run.pull s w n r).1 := by
  induction n generalizing r with
  | zero => exact h
  | succ n ih =>
    unfold Run.pull
    split
    · exact h
    · split
      · next hnext =>
        have hsource := nextCandidate_error_source hnext
        obtain ⟨_, _, hkeeps⟩ := r.nextCandidate_keeps s w
        rw [hnext] at hkeeps
        dsimp only at hkeeps ⊢
        rw [hkeeps] at hsource ⊢
        exact h.congr rfl hsource rfl rfl rfl
      · next hnext =>
        obtain ⟨_, _, hkeeps⟩ := r.nextCandidate_keeps s w
        rw [hnext] at hkeeps
        dsimp only at hkeeps ⊢
        rw [hkeeps]
        exact h.exhaust.congr rfl rfl rfl rfl rfl
      · next r₁ c hnext =>
        obtain ⟨h₁, hroom, hrecord⟩ := h.next hnext
        have h₂ := h₁.classify (w := w) hroom hrecord
        split
        · next hclassify =>
          rw [hclassify] at h₂
          exact h₂
        · next hclassify =>
          rw [hclassify] at h₂
          exact ih h₂

/-! ### Jobs -/

/-- What leaves the table of the library alone, or its ids, leaves songs with the same ids to
    come. -/
theorem rest_ids (h : Supplied s r) {visit : SongTable.Visit} (hvisit : r.source = some (.table visit))
    (hprimary : s.mode.isDestructive → r'.primary = r.primary)
    (hids : s.mode.origin = .table .byId → r'.ids = r.ids) :
    (visit.rest ((r'.primary.map OpenTable.table).getD .empty)).map Song.id =
      (visit.rest ((r.primary.map OpenTable.table).getD .empty)).map Song.id := by
  have horigin := h.origin _ hvisit
  cases horder : visit.order with
  | byLocation =>
    rw [hprimary]
    rw [originOf, horder] at horigin
    cases hmode : s.mode with
    | compact checkNew => rfl
    | _ => rw [hmode] at horigin; cases horigin
  | byId =>
    have hsame := hids (by rw [horigin, originOf, horder])
    rw [ids_eq, ids_eq] at hsame
    exact SongTable.Visit.ids_rest horder hsame

/-- So there are as many candidates to come. -/
theorem ahead_eq (h : Supplied s r) (hsource : r'.source = r.source)
    (hprimary : s.mode.isDestructive → r'.primary = r.primary)
    (hids : s.mode.origin = .table .byId → r'.ids = r.ids) : r'.ahead = r.ahead := by
  unfold ahead
  rw [hsource]
  cases hold : r.source with
  | none => rfl
  | some source =>
    cases source with
    | files paths => rfl
    | table visit => simpa using congrArg List.length (h.rest_ids hold hprimary hids)

/-- Doing a job leaves the table of the library alone, or its ids. -/
theorem performNext_table (h : Supplied s r) (hopen : TablesOpen s r) :
    (s.mode.origin = .table .byId → (r.performNext s w).ids = r.ids) ∧
      (s.mode.isDestructive → (r.performNext s w).primary = r.primary) := by
  unfold Run.performNext
  split
  · exact ⟨fun _ => rfl, fun _ => rfl⟩
  · next job queue hpop =>
    have htarget := hopen.target
    constructor
    · intro hmode
      obtain ⟨song, he, hknown⟩ := h.jobs hmode job
        (by rw [Queue.toList_of_pop? hpop]; exact List.mem_cons_self ..)
      rw [Bool.eq_false_iff.2 (Retouched.not_isDestructive hmode)] at htarget
      exact (perform_sameIds (r := { r with queue, history.taken := job :: r.history.taken }) hmode
        (by simpa using htarget) he hknown).ids
    · intro hd
      exact (perform_kept s w { r with queue, history.taken := job :: r.history.taken } job).library
        (htarget.trans hd)

/-- Doing a job leaves as many candidates to come as there were. -/
theorem performNext (h : Supplied s r) (hopen : TablesOpen s r) : Supplied s (r.performNext s w) := by
  obtain ⟨hids, hlibrary⟩ := h.performNext_table (w := w) hopen
  obtain ⟨-, -, hfound, -, hsource⟩ := performNext_keeps (s := s) (w := w) r
  refine ⟨?_, hsource ▸ h.origin, fun visit hmode => ?_, fun hmode job hjob => ?_⟩
  · rw [hfound, h.ahead_eq hsource hlibrary hids, (performNext_quiet r).total]
    exact h.bound
  · rw [hsource, has_congr (hids hmode)]
    exact h.page visit hmode
  · rw [(performNext_queue r).1] at hjob
    rw [has_congr (hids hmode)]
    exact h.jobs hmode job (List.mem_of_mem_tail hjob)

theorem reportProgress (h : Supplied s r) : Supplied s r.reportProgress := by
  obtain ⟨_, _, hkeeps⟩ := r.reportProgress_keeps
  rw [hkeeps]
  exact h.congr rfl rfl rfl rfl rfl

/-! ### Steps -/

/-- Nothing has been found, and no page is at hand. -/
theorem begin (hfound : r.history.found = []) (hqueue : r.queue.toList = [])
    (horigin : ∀ source, r.source = some source → s.mode.origin = originOf source)
    (hpage : ∀ visit, r.source = some (.table visit) → visit.page = [])
    (hahead : r.ahead ≤ r.total) : Supplied s r where
  bound := by rwa [hfound, List.length_nil, Nat.zero_add]
  origin := horigin
  page visit _ hsource song hsong := by
    rw [hpage visit hsource] at hsong
    cases hsong
  jobs _ job hjob := by
    rw [hqueue] at hjob
    cases hjob

/-- Candidates are counted before the first of them is found. -/
theorem prepare (hfound : r.history.found = []) (hqueue : r.queue.toList = [])
    (hsource : r.source = none) (h : r.prepare s w = (r', .ok ())) : Supplied s r' := by
  obtain ⟨nextId, moment, hchoose⟩ := chooseNextId_keeps s w r
  unfold Run.prepare at h
  split at h
  · cases h
  · next r₁ h₁ =>
    rw [h₁] at hchoose
    obtain rfl : r₁ = { r with nextId, moment } := hchoose
    split at h
    · cases h
    · next r₂ h₂ =>
      cases h
      unfold openSource at h₂
      split at h₂
      · cases h₂
        refine begin hfound hqueue ?_ ?_ ?_
        · intro source hsome
          rw [show r.source = some source from hsome] at hsource
          cases hsource
        · intro visit hsome
          rw [show r.source = _ from hsome] at hsource
          cases hsource
        · rw [ahead, show Run.source _ = none from hsource]
          exact Nat.zero_le _
      · split at h₂
        · next horigin =>
          cases h₂
          refine begin hfound hqueue ?_ (fun _ hsome => (by cases hsome)) (Nat.le_refl _)
          intro source hsome
          cases hsome
          exact horigin
        · next order horigin =>
          split at h₂
          · cases h₂
          · split at h₂
            · cases h₂
            · next primary hprimary =>
              cases h₂
              refine begin hfound hqueue ?_ ?_ ?_
              · intro source hsome
                cases hsome
                exact horigin
              · intro visit hsome
                cases hsome
                rfl
              · have hlength : ((primary.table.visit order pageSize).rest primary.table).length ≤
                    primary.table.rows.length := by
                  rw [SongTable.Visit.rest_visit, List.length_map]
                  exact Nat.le_trans (List.length_filter_le _ _)
                    (Nat.le_of_eq (primary.table.perm_ordered order).length_eq)
                exact Nat.le_trans (Nat.le_of_eq (ahead_visit rfl hprimary)) hlength

theorem gather (h : Supplied s r) (hopen : TablesOpen s r) : Supplied s (r.gather s w).1 := by
  have hpull := h.pull (w := w) s.batch
  have hsame := (pull_looks (s := s) (w := w) (r := r) s.batch).sameTables
  rcases gather_cases s w r with ⟨r₁, failure, hpulled, heq⟩ | ⟨r₁, phase, hpulled, -, heq⟩ <;>
    rw [heq] <;> rw [hpulled] at hpull hsame
  · exact hpull
  · have hopen₁ := hsame.opened hopen
    have hnoted : Supplied s { r₁ with phase } := hpull.congr rfl rfl rfl rfl rfl
    exact (hnoted.performNext ⟨hopen₁.primary, hopen₁.target⟩).reportProgress

theorem drain (h : Supplied s r) (hopen : TablesOpen s r) : Supplied s (r.drain s w) := by
  unfold Run.drain
  split
  · exact h.congr rfl rfl rfl rfl rfl
  · exact (h.performNext hopen).reportProgress

end Supplied

/-- What is known of the candidates, by the phase of a run. -/
structure Counted (s : Setup) (r : Run) : Prop where
  early : r.phase = .start ∨ r.phase = .prepare →
    r.history.found = [] ∧ r.queue.toList = [] ∧ r.source = none
  amid : r.phase ∈ [.gather, .drain, .finish] → Supplied s r
  bound : r.history.found.length ≤ r.total

theorem Supplied.counted (h : Supplied s r) (hphase : r.phase ≠ .start ∧ r.phase ≠ .prepare) :
    Counted s r :=
  ⟨fun hearly => (hearly.elim hphase.1 hphase.2).elim, fun _ => h,
    Nat.le_trans (Nat.le_add_right _ _) h.bound⟩

/-- A step keeps what is known of the candidates, from the counting of them to the end. -/
theorem Counted.step (h : Counted s r)
    (hopened : r.phase ∈ [.prepare, .gather, .drain, .finish] → TablesOpen s r)
    (hact : r.act s w = (r', .ok ())) : Counted s r' := by
  cases act_cases hact with
  | start hphase hact hnext =>
    obtain ⟨hfound, hqueue, hsource⟩ := h.early (.inl hphase)
    obtain ⟨hsame, hsource'⟩ := start_sameQueue s w r
    rw [hact] at hsame hsource'
    refine ⟨fun _ => ⟨hsame.found.trans hfound, by rw [hsame.queue, hqueue],
      hsource'.trans hsource⟩, fun hlate => by simp [hnext] at hlate, ?_⟩
    rw [hsame.found, hfound]
    exact Nat.zero_le _
  | prepare hphase hact hnext =>
    obtain ⟨hfound, hqueue, hsource⟩ := h.early (.inr hphase)
    exact (Supplied.prepare hfound hqueue hsource hact).counted (by simp [hnext])
  | gather hphase hact hnext =>
    have hsupplied := (h.amid (by simp [hphase])).gather (w := w) (hopened (by simp [hphase]))
    rw [hact] at hsupplied
    refine hsupplied.counted ?_
    rcases hnext with hnext | hnext <;> simp [hnext]
  | drain hphase hnext =>
    refine ((h.amid (by simp [hphase])).drain (hopened (by simp [hphase]))).counted ?_
    rcases hnext with hnext | hnext <;> simp [hnext]
  | finish _ hact hnext =>
    obtain ⟨hsame, -, htotal⟩ := finish_sameQueue s w r
    rw [hact] at hsame htotal
    exact ⟨fun hearly => by simp [hnext] at hearly, fun hlate => by simp [hnext] at hlate,
      by rw [hsame.found, htotal]; exact h.bound⟩
  | done _ => exact h

theorem Counted.bound_of_error {failure : Failure} (h : Counted s r)
    (hopened : r.phase ∈ [.prepare, .gather, .drain, .finish] → TablesOpen s r)
    (hact : r.act s w = (r', .error failure)) : r'.history.found.length ≤ r'.total := by
  cases act_error_cases hact with
  | start hphase hact =>
    have hsame := (start_sameQueue s w r).1.found
    rw [hact] at hsame
    rw [hsame, (h.early (.inl hphase)).1]
    exact Nat.zero_le _
  | prepare hphase hact =>
    have hsame := (prepare_sameQueue s w r).1.found
    rw [hact] at hsame
    rw [hsame, (h.early (.inr hphase)).1]
    exact Nat.zero_le _
  | gather hphase hact =>
    have hsupplied := (h.amid (by simp [hphase])).gather (w := w) (hopened (by simp [hphase]))
    rw [hact] at hsupplied
    exact Nat.le_trans (Nat.le_add_right _ _) hsupplied.bound
  | finish _ hact =>
    obtain ⟨hsame, -, htotal⟩ := finish_sameQueue s w r
    rw [hact] at hsame htotal
    dsimp only at hsame htotal
    rw [hsame.found, htotal]
    exact h.bound

/-- A message takes the source away at most. -/
theorem Counted.control (h : Counted s r) (message : Control) : Counted s (r.control message) := by
  rcases r.control_cases message with heq | heq
  · rw [heq]
    exact h
  · refine ⟨?_, fun hphase => (h.amid ?_).control message, ?_⟩
    · rw [heq]
      exact fun hphase => ⟨(h.early hphase).1, (h.early hphase).2.1, rfl⟩
    · rwa [heq] at hphase
    · rw [heq]
      exact h.bound

/-- **The candidates found are no more than were counted**, however the run goes. -/
theorem counted_of_reachable {o : Option Failure} (h : Reachable s w files o r) : Counted s r := by
  induction h with
  | new => exact ⟨fun _ => ⟨rfl, rfl, rfl⟩, fun hphase => by simp [Run.new] at hphase, Nat.le_refl _⟩
  | control message _ ih => exact ih.control message
  | step hreach hs ih => exact ih.step (opened_of_reachable hreach).2 (act_of_step_ok hs).1
  | fail hreach hs ih =>
    obtain ⟨r₁, hact, rfl⟩ := act_of_step_error hs
    have hbound := ih.bound_of_error (opened_of_reachable hreach).2 hact
    exact ⟨fun hearly => by simp [Run.fail] at hearly, fun hlate => by simp [Run.fail] at hlate,
      hbound⟩

end SongLibrary.Reconcile.Run
