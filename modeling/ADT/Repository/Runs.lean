import ADT.Repository.Publication

/-!
# Repository.Runs — what holds in every run of the service

Operations follow one another in any order; between two requests others edit checkouts and move remote branches, any
request may fail, and the service may be started anew at any point, also with other environments.
-/

namespace ADT.Repository

open Interleave Runner Serial

variable {Tree : Type} [DecidableEq Tree] [Surroundings Tree]
  {remotes : RepositoryName → String → Option (Commit Tree)} {environments : List RunnerEnvironment}
  {s t : State (service Tree)} {p : Place}

theorem stable_replyOk (environments : List RunnerEnvironment) (a : Reply Tree) :
    Stable fun v : Seen Tree => ReplyOk v.log environments v.world (.ok a) := by
  cases a with
  | prepared r cwd =>
    have hhidden : Stable fun v : Seen Tree => Hidden environments v.world ⟨r.environmentKey, r.taskId⟩ cwd :=
      (kept_hidden (q := (.gitHead ⟨r.environmentKey, r.taskId⟩ : Request Tree)) nofun).stable
    exact Stable.and (fun _ _ _ h => h) ((stable_const (r.state = .prepared)).and
      ((stable_const (r.worktreeAvailable = true)).and hhidden))
  | published r changed commitSha reconciled => cases changed <;> exact fun _ _ _ h => h
  | found | notFound | cleaned => exact stable_const True

theorem wp_replied (op : Op) {v : Seen Tree} (h : Sound v) :
    Wp Sound (operation environments op) (Replied (V := service Tree) Sound environments op) v := by
  refine (wp_operation op h).mono fun r v hr v' hv' => ?_
  rcases r with e | a
  · have h' := stable_sound.between hv' hr.1
    exact ⟨h', sound_reply h' environments op _ trivial⟩
  · have h' := stable_sound.between hv' hr.1
    exact ⟨h', sound_reply h' environments op _ ((stable_replyOk environments a).between hv' hr.2)⟩

theorem keeps_init : Keeps Sound (init (World.start remotes) environments : State (service Tree)) :=
  ⟨sound_init remotes, fun _ _ h => by cases h⟩

theorem keeps_reached (hr : Reaches (init (World.start remotes) environments) s) : Keeps Sound s :=
  keeps_run (fun _ m h => sound_moved h m) (fun _ op _ h => wp_replied op h) keeps_init hr

/-- Directories in which nothing is ignored, by the names of their files; nobody edits them while the service works. -/
instance quietNames : Surroundings (List String) := ⟨[], fun _ work => work, id, false⟩

def oneEnvironment : List RunnerEnvironment := [⟨"e", "/w", true, some ⟨"o", "r", "main"⟩⟩]

def mainOnly (_ : RepositoryName) (branch : String) : Option (Commit (List String)) :=
  if branch = "main" then some (.root ["a"] 0) else none

def next (fate : Fate) : Action (service (List String)) := .next ⟨fate, false, [], false, false, [], 1⟩

def prepareActions (id : String) (requests : ℕ) : List (Action (service (List String))) :=
  .start (.prepare ⟨"e", id, "x", none, none⟩) :: List.replicate requests (next .done)

/-- A file is added, and the task is published; the answer of the push is lost, and the branch is asked for. -/
def publishActions : List (Action (service (List String))) :=
  .other (.edit "/w" "t" ["a", "b"]) :: .start (.publish ⟨"e", "t", "x", "m", none⟩) ::
    List.replicate 10 (next .done) ++ next .lost :: List.replicate 4 (next .done)

abbrev started : State (service (List String)) := init (World.start mainOnly) oneEnvironment

def isPublished (s : State (service (List String))) : Bool :=
  (s.world.record ⟨"e", "t"⟩).any (·.state = .published) && s.log.any (pushed ⟨"e", "t"⟩)

/-- The latest entry is the reply to a preparation of the task, and another task has a record. -/
def answersPreparation (id other : String) (s : State (service (List String))) : Bool :=
  match s.log with
  | .reply _ _ _ (.ok (.prepared r _)) :: _ => r.taskId == id && (s.world.record ⟨"e", other⟩).isSome
  | _ => false

/-- The record of the task is written as sealed. -/
def isSealed : Event (List String) → Bool
  | .call _ _ (.persist .task p _ r) _ => p = ⟨"e", "t"⟩ && r.state = .sealed
  | _ => false

theorem published_run : (run started (prepareActions "t" 20 ++ publishActions)).any isPublished = true := by
  decide +kernel

/-! ### Pushes -/

theorem call_of_pushed {x : Event Tree} (h : pushed p x = true) :
    ∃ before after repository branch a, x = .call before after (.gitPush p repository branch) a := by
  cases x with
  | reply => cases h
  | call before after q a =>
    cases q with
    | gitPush p' repository branch =>
      obtain rfl := eq_of_beq h
      exact ⟨before, after, repository, branch, a, rfl⟩
    | _ => cases h

/-- **Pushes.** Every push is of the sealed commit of a task whose record says that a push may be under way, on its
branch and to its repository, and it is the only one since a preparation of the task was completed. -/
theorem pushed_once (hr : Reaches (init (World.start remotes) environments) s)
    {later earlier : List (Event Tree)} {x : Event Tree}
    (hlog : s.log = later ++ x :: earlier) (hx : pushed p x = true) :
    ∃ before after repository branch a, x = .call before after (.gitPush p repository branch) a ∧
      PushOk before p repository branch ∧ Unpushed p earlier := by
  have hentry := (keeps_reached hr).inv.entries later x earlier hlog
  obtain ⟨before, after, repository, branch, a, rfl⟩ := call_of_pushed hx
  exact ⟨before, after, repository, branch, a, rfl, hentry.1.2, hentry.2 p hx⟩

theorem pushed_once_published : ∃ s later earlier x, Reaches started s ∧ s.log = later ++ x :: earlier ∧
    pushed ⟨"e", "t"⟩ x = true ∧ ∃ before after repository branch a,
      x = .call before after (.gitPush ⟨"e", "t"⟩ repository branch) a ∧
        PushOk before ⟨"e", "t"⟩ repository branch ∧ Unpushed ⟨"e", "t"⟩ earlier := by
  obtain ⟨s, hs, htest⟩ := reaches_of_any _ _ published_run
  obtain ⟨x, hmem, hx⟩ := List.any_eq_true.mp ((Bool.and_eq_true _ _).mp htest).2
  obtain ⟨later, earlier, hlog⟩ := List.append_of_mem hmem
  exact ⟨s, later, earlier, x, hs, hlog, hx, pushed_once hs hlog hx⟩

/-- **Publications.** A record that says it is published, and a reply that reports a change, name the sealed commit, and
a push or a fetch showed it at the branch before; a reply that reports no change names the base commit. -/
theorem published_shown (hr : Reaches (init (World.start remotes) environments) s) :
    (∀ r, s.world.record p = some r → r.state = .published → ∃ c, r.pushedCommitSha = some c ∧
      r.sealedCommitSha = some c ∧ c ≠ r.baseSha ∧ Shown s.log r.repository r.branch c) ∧
    ∀ later setup w op r changed commitSha reconciled earlier,
      s.log = later ++ .reply setup w op (.ok (.published r changed commitSha reconciled)) :: earlier →
        if changed then ∃ c, commitSha = some c ∧ r.sealedCommitSha = some c ∧ c ≠ r.baseSha ∧
          Shown earlier r.repository r.branch c
        else commitSha = some r.baseSha := by
  have h := (keeps_reached hr).inv
  refine ⟨fun r hrecord hstate => ?_, fun later setup w op r changed commitSha reconciled earlier hlog => ?_⟩
  · have hok := h.record hrecord
    have hne : r.state ≠ .prepared := by rw [hstate]; exact nofun
    obtain ⟨hpushed, hchanged⟩ := hok.pushed (by rw [ManagedTaskMetadata.due, hstate]; rfl)
    obtain ⟨c, hsealed, -⟩ := hok.sealed hne
    have hc : r.pushedCommitSha = some c := hpushed.trans hsealed
    exact ⟨c, hc, hsealed, hok.ne_base hne hchanged hsealed, hok.shown hstate c hc⟩
  · have hentry := h.entries later _ earlier hlog
    cases changed with
    | false => exact hentry
    | true => exact hentry

theorem published_shown_reconciled : ∃ s r c, Reaches started s ∧ s.world.record ⟨"e", "t"⟩ = some r ∧
    r.state = .published ∧ r.pushedCommitSha = some c ∧ r.sealedCommitSha = some c ∧ c ≠ r.baseSha ∧
      Shown s.log r.repository r.branch c := by
  obtain ⟨s, hs, htest⟩ := reaches_of_any _ _ published_run
  obtain ⟨r, hr, hstate⟩ := (Option.any_eq_true _ _).mp ((Bool.and_eq_true _ _).mp htest).1
  obtain ⟨c, hc⟩ := (published_shown hs).1 r hr (of_decide_eq_true hstate)
  exact ⟨s, r, c, hs, hr, of_decide_eq_true hstate, hc⟩

/-! ### Preparations -/

/-- **Preparations.** When a preparation is answered, the record of its task is in place with its checkout available, and
every other task of an enabled managed environment that has a record is sealed, with no checkout. -/
theorem prepared_alone (hr : Reaches (init (World.start remotes) environments) s) (later : List (Event Tree))
    {earlier : List (Event Tree)} {setup : List RunnerEnvironment} {w : World Tree} {op : Op}
    {r : ManagedTaskMetadata Tree} {cwd : String}
    (hlog : s.log = later ++ .reply setup w op (.ok (.prepared r cwd)) :: earlier) :
    w.record ⟨r.environmentKey, r.taskId⟩ = some r ∧ r.state = .prepared ∧ r.worktreeAvailable = true ∧
      Hidden setup w ⟨r.environmentKey, r.taskId⟩ cwd := by
  obtain ⟨hrecord, hstate, havailable, hhidden⟩ := (keeps_reached hr).inv.entries later _ earlier hlog
  exact ⟨hrecord, hstate, havailable, hhidden⟩

/-- A second task is prepared while the first one is prepared. -/
theorem prepared_alone_second : ∃ s earlier setup w op r cwd, Reaches started s ∧
    s.log = [] ++ .reply setup w op (.ok (.prepared r cwd)) :: earlier ∧ r.taskId = "u" ∧
      World.record w ⟨r.environmentKey, r.taskId⟩ = some r ∧ r.state = .prepared ∧ r.worktreeAvailable = true ∧
      Hidden setup w ⟨r.environmentKey, r.taskId⟩ cwd := by
  have hrun : (run started (prepareActions "t" 20 ++ prepareActions "u" 26)).any (answersPreparation "u" "t") =
      true := by
    decide +kernel
  obtain ⟨s, hs, htest⟩ := reaches_of_any _ _ hrun
  unfold answersPreparation at htest
  split at htest
  · rename_i setup w op r cwd earlier hlog
    have hid : r.taskId = "u" := eq_of_beq ((Bool.and_eq_true _ _).mp htest).1
    exact ⟨s, earlier, setup, w, op, r, cwd, hs, hlog, hid, prepared_alone hs [] hlog⟩
  · cases htest

/-! ### Records -/

/-- The directory of the task is removed. -/
def removed (p : Place) : Event Tree → Bool
  | .call _ _ (.removeDir .task p') _ => p' == p
  | _ => false

theorem record_step {a : Action (service Tree)} (h : Keeps Sound s) (hs : step s a = some t)
    {r : ManagedTaskMetadata Tree} (hr : s.world.record p = some r) :
    (∃ x, t.log = x :: s.log ∧ removed p x = true) ∨
      ∃ r', t.world.record p = some r' ∧ Progress r r' := by
  have ht := keeps_step (fun _ m h => sound_moved h m) (fun _ op _ h => wp_replied op h) h hs
  cases a with
  | start op =>
    rcases hc : s.current with _ | c <;> rw [step, hc] at hs <;> cases hs
    exact .inr ⟨r, hr, .refl r⟩
  | next env =>
    rcases hc : s.current with _ | ⟨op, a | e | ⟨q, next⟩⟩ <;> rw [step, hc] at hs <;> cases hs
    · exact .inr ⟨r, hr, .refl r⟩
    · exact .inr ⟨r, hr, .refl r⟩
    · rcases (ht.inv.entries [] _ s.log rfl).1.1 p r hr with rfl | hprogress
      · exact .inl ⟨_, rfl, beq_self_eq_true p⟩
      · exact .inr hprogress
  | other m =>
    rw [step] at hs
    split_ifs at hs
    cases hs
    exact .inr ⟨r, hr, .refl r⟩
  | restart setup =>
    cases hs
    exact .inr ⟨r, hr, .refl r⟩

/-- **Records.** Between any two states of a run a task's record goes on, unless its directory was removed: its state
does not go back, what identifies the task stays, and a commit once sealed or pushed stays. -/
theorem record_goes_on (hr : Reaches (init (World.start remotes) environments) s) (ht : Reaches s t)
    {r : ManagedTaskMetadata Tree} (hrecord : s.world.record p = some r) :
    ∃ new, t.log = new ++ s.log ∧ ((∃ x ∈ new, removed p x = true) ∨
      ∃ r', t.world.record p = some r' ∧ Progress r r') := by
  induction ht with
  | refl => exact ⟨[], rfl, .inr ⟨r, hrecord, .refl r⟩⟩
  | tail run _ move ih =>
    obtain ⟨new, hlog, hnew⟩ := ih
    obtain ⟨new', hlog'⟩ := log_step move
    refine ⟨new' ++ new, by rw [hlog', hlog, List.append_assoc], ?_⟩
    rcases hnew with ⟨x, hmem, hx⟩ | ⟨r', hr', hprogress⟩
    · exact .inl ⟨x, List.mem_append_right _ hmem, hx⟩
    · rcases record_step (keeps_reached (hr.trans run)) move hr' with ⟨x, hremoved, hx⟩ | ⟨r'', hr'', hnext⟩
      · obtain rfl : new' = [x] := List.append_cancel_right (hlog'.symm.trans hremoved)
        exact .inl ⟨x, List.mem_append_left _ (List.mem_singleton_self x), hx⟩
      · exact .inr ⟨r'', hr'', hprogress.trans hnext⟩

theorem record_goes_on_published : ∃ s t r, Reaches started s ∧ Reaches s t ∧
    s.world.record ⟨"e", "t"⟩ = some r ∧ isPublished t = true ∧ ∃ new, t.log = new ++ s.log ∧
      ((∃ x ∈ new, removed ⟨"e", "t"⟩ x = true) ∨ ∃ r', t.world.record ⟨"e", "t"⟩ = some r' ∧ Progress r r') := by
  have hrun : (run started (prepareActions "t" 20)).any (fun s =>
      (s.world.record ⟨"e", "t"⟩).isSome && (run s publishActions).any isPublished) = true := by
    decide +kernel
  obtain ⟨s, hs, htest⟩ := reaches_of_any _ _ hrun
  obtain ⟨hsome, hrest⟩ := (Bool.and_eq_true _ _).mp htest
  obtain ⟨r, hr⟩ := Option.isSome_iff_exists.mp hsome
  obtain ⟨t, ht, hpublished⟩ := reaches_of_any _ _ hrest
  exact ⟨s, t, r, hs, ht, hr, hpublished, record_goes_on hs ht hr⟩

/-- **Checkouts.** Where the service removes the checkout of a task that has a record, the record says that the checkout
is given up and names the commit it was sealed in; and where nobody edits checkouts while the service works, a record is
sealed with a commit that has what `git add --all` makes of the checkout at that moment. -/
theorem checkout_sealed (hr : Reaches (init (World.start remotes) environments) s) {x : Event Tree} (hx : x ∈ s.log)
    {before after : World Tree} {cwd : String} :
    (∀ a, x = .call before after (.removeWorktree p cwd : Request Tree) a → RemovalOk before p) ∧
      (Surroundings.edits Tree = false → ∀ r a, x = .call before after (.persist .task p cwd r : Request Tree) a →
        SealOk before p cwd r) := by
  obtain ⟨later, earlier, hlog⟩ := List.append_of_mem hx
  have hentry := (keeps_reached hr).inv.entries later x earlier hlog
  refine ⟨fun a hcall => ?_, fun hedits r a hcall => ?_⟩ <;> subst hcall
  · exact hentry.1.2
  · exact hentry.1.2 hedits

theorem checkout_sealed_published : ∃ s x before after cwd r a, Reaches started s ∧ x ∈ s.log ∧
    x = .call (V := service (List String)) before after (.persist .task ⟨"e", "t"⟩ cwd r : Request (List String)) a ∧
    r.state = .sealed ∧ (∀ a, x = .call (V := service (List String)) before after
      (.removeWorktree ⟨"e", "t"⟩ cwd : Request (List String)) a → RemovalOk before ⟨"e", "t"⟩) ∧
    SealOk before ⟨"e", "t"⟩ cwd r := by
  have hrun : (run started (prepareActions "t" 20 ++ publishActions)).any (·.log.any isSealed) = true := by
    decide +kernel
  obtain ⟨s, hs, htest⟩ := reaches_of_any _ _ hrun
  obtain ⟨x, hx, htest⟩ := List.any_eq_true.mp htest
  unfold isSealed at htest
  split at htest
  · rename_i before after p cwd r a
    obtain ⟨hp, hstate⟩ := (Bool.and_eq_true _ _).mp htest
    obtain rfl := of_decide_eq_true hp
    exact ⟨s, _, before, after, cwd, r, a, hs, hx, rfl, of_decide_eq_true hstate, (checkout_sealed hs hx).1,
      (checkout_sealed hs hx).2 rfl r a rfl⟩
  · cases htest

end ADT.Repository
