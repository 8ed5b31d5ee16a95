import ADT.Catalogue.Freshness

/-!
# Catalogue.Invalidation — no stale catalogue after an invalidation

The epochs and floors of the world are read off the events of its run: a `Record` of the commits, of where each invalidation
and each call began, and of the invalidations that have returned true.  In a run without a careless join or fallback, a call
that starts after an invalidation returns what was the head at the commit before that invalidation, or later.
-/

namespace ADT.Catalogue

open Interleave Artifacts

variable {S : Setting}

/-! ### Records -/

/-- What the events say of the epochs, and the heads with the epochs they began. -/
structure Record where
  epoch : ℕ
  floor : ℕ
  opened : ℕ → Option ℕ
  due : ℕ → Option ℕ
  heads : List (ℕ × String)

namespace Record

def initial (head : String) : Record := ⟨0, 0, fun _ => none, fun _ => none, [(0, head)]⟩

def note (r : Record) : Event signature → Record
  | ⟨_, .commit revision, _⟩ => { r with epoch := r.epoch + 1, heads := (r.epoch + 1, revision) :: r.heads }
  | ⟨t, .distrust _, _⟩ => { r with opened := Function.update r.opened t (some ((r.opened t).getD r.epoch)) }
  | ⟨t, .join _ _, _⟩ => { r with due := Function.update r.due t (some ((r.due t).getD r.floor)) }
  | ⟨t, .log .invalidated, _⟩ => { r with floor := max r.floor ((r.opened t).getD 0) }
  | _ => r

def of (head : String) : List (Event signature) → Record
  | [] => initial head
  | e :: trace => (of head trace).note e

variable {r : Record} {e : Event signature} {t n : ℕ} {head revision : String}

theorem note_cases (r : Record) (e : Event signature) :
    (∃ t revision, e = ⟨t, .commit revision, ()⟩ ∧
      r.note e = { r with epoch := r.epoch + 1, heads := (r.epoch + 1, revision) :: r.heads }) ∨
    r.note e = { r with opened := Function.update r.opened e.thread (some ((r.opened e.thread).getD r.epoch)) } ∨
    r.note e = { r with due := Function.update r.due e.thread (some ((r.due e.thread).getD r.floor)) } ∨
    (e = ⟨e.thread, .log .invalidated, ()⟩ ∧ r.note e = { r with floor := max r.floor ((r.opened e.thread).getD 0) }) ∨
    r.note e = r := by
  obtain ⟨t, q, a⟩ := e
  cases q with
  | commit revision => exact .inl ⟨t, revision, rfl, rfl⟩
  | distrust process => exact .inr (.inl rfl)
  | join process level => exact .inr (.inr (.inl rfl))
  | log event =>
    cases event with
    | invalidated => exact .inr (.inr (.inr (.inl ⟨rfl, rfl⟩)))
    | _ => exact .inr (.inr (.inr (.inr rfl)))
  | _ => exact .inr (.inr (.inr (.inr rfl)))

theorem epoch_note (r : Record) (e : Event signature) : r.epoch ≤ (r.note e).epoch := by
  rcases note_cases r e with ⟨t, revision, -, hn⟩ | hn | hn | ⟨-, hn⟩ | hn
  · simp only [hn]
    omega
  all_goals simp only [hn, le_refl]

theorem floor_note (r : Record) (e : Event signature) : r.floor ≤ (r.note e).floor := by
  rcases note_cases r e with ⟨t, revision, -, hn⟩ | hn | hn | ⟨-, hn⟩ | hn
  all_goals simp only [hn, le_refl]
  exact le_max_left ..

theorem opened_note {o : ℕ} (h : (r.note e).opened t = some o) :
    r.opened t = some o ∨ (t = e.thread ∧ o = r.epoch) := by
  rcases note_cases r e with ⟨_, _, -, hn⟩ | hn | hn | ⟨-, hn⟩ | hn
  all_goals rw [hn] at h
  rotate_left
  · exact once_cases h
  all_goals exact .inl h

theorem due_note {d : ℕ} (h : (r.note e).due t = some d) :
    r.due t = some d ∨ (t = e.thread ∧ d = r.floor) := by
  rcases note_cases r e with ⟨_, _, -, hn⟩ | hn | hn | ⟨-, hn⟩ | hn
  all_goals rw [hn] at h
  rotate_left 2
  · exact once_cases h
  all_goals exact .inl h

theorem heads_note (h : (n, revision) ∈ (r.note e).heads) :
    (n, revision) ∈ r.heads ∨ (n = r.epoch + 1 ∧ ∃ t, e = ⟨t, .commit revision, ()⟩) := by
  rcases note_cases r e with ⟨t, head, he, hn⟩ | hn | hn | ⟨-, hn⟩ | hn
  all_goals rw [hn] at h
  · rcases List.mem_cons.mp h with hnew | hold
    · obtain ⟨rfl, rfl⟩ := Prod.mk.inj hnew
      exact .inr ⟨rfl, t, he⟩
    · exact .inl hold
  all_goals exact .inl h

variable {trace : List (Event signature)} (later : List (Event signature)) {earlier : List (Event signature)}

section Once

-- what is noted of a thread once, and the level it is noted at
variable {noted : Record → ℕ → Option ℕ} {level : Record → ℕ} (hnone : ∀ head t, noted (initial head) t = none)
  (hgrows : ∀ r e, level r ≤ level (r.note e))
  (hnote : ∀ {r e t o}, noted (r.note e) t = some o → noted r t = some o ∨ (t = e.thread ∧ o = level r))

include hgrows in
theorem level_le : level (of head earlier) ≤ level (of head (later ++ earlier)) := by
  induction later with
  | nil => exact le_rfl
  | cons e later ih => exact ih.trans (hgrows _ e)

include hnone hnote in
theorem noted_quiet (hquiet : ∀ e ∈ trace, e.thread ≠ t) : noted (of head trace) t = none := by
  induction trace with
  | nil => exact hnone head t
  | cons e trace ih =>
    obtain ⟨hthread, hrest⟩ := List.forall_mem_cons.mp hquiet
    by_contra hsome
    obtain ⟨o, ho⟩ := Option.ne_none_iff_exists'.mp hsome
    rcases hnote ho with hold | ⟨rfl, -⟩
    · rw [ih hrest] at hold
      cases hold
    · exact hthread rfl

include hnone hgrows hnote in
theorem noted_after {o : ℕ} (hquiet : ∀ e ∈ earlier, e.thread ≠ t)
    (h : noted (of head (later ++ earlier)) t = some o) : level (of head earlier) ≤ o := by
  induction later with
  | nil =>
    rw [List.nil_append, noted_quiet hnone hnote hquiet] at h
    cases h
  | cons e later ih =>
    rcases hnote h with hold | ⟨-, rfl⟩
    · exact ih hold
    · exact level_le later hgrows

end Once

theorem opened_after {o : ℕ} (hquiet : ∀ e ∈ earlier, e.thread ≠ t)
    (h : (of head (later ++ earlier)).opened t = some o) : (of head earlier).epoch ≤ o :=
  noted_after later (fun _ _ => rfl) epoch_note opened_note hquiet h

theorem due_after {d : ℕ} (hquiet : ∀ e ∈ earlier, e.thread ≠ t)
    (h : (of head (later ++ earlier)).due t = some d) : (of head earlier).floor ≤ d :=
  noted_after later (fun _ _ => rfl) floor_note due_note hquiet h

theorem heads_le (h : (n, revision) ∈ (of head trace).heads) : n ≤ (of head trace).epoch := by
  induction trace with
  | nil =>
    obtain ⟨rfl, -⟩ := Prod.mk.inj (List.mem_singleton.mp h)
    exact le_rfl
  | cons e trace ih =>
    rcases heads_note h with hold | ⟨rfl, t, rfl⟩
    · exact (ih hold).trans (epoch_note _ e)
    · exact le_rfl

theorem committed_after {later : List (Event signature)} (h : (n, revision) ∈ (of head (later ++ earlier)).heads)
    (hn : (of head earlier).epoch < n) : ∃ t, ⟨t, .commit revision, ()⟩ ∈ later := by
  induction later with
  | nil => exact absurd (heads_le h) (Nat.not_le.mpr hn)
  | cons e later ih =>
    rcases heads_note h with hold | ⟨-, t, rfl⟩
    · obtain ⟨t, ht⟩ := ih hold
      exact ⟨t, List.mem_cons_of_mem _ ht⟩
    · exact ⟨t, List.mem_cons_self ..⟩

end Record

/-! ### The record of a run -/

/-- A world is as its record says. -/
structure World.Recorded (w : World) (r : Record) : Prop where
  epoch : w.moment.epoch = r.epoch
  floor : w.floor = r.floor
  opened : w.opened = r.opened
  due : w.due = r.due
  heads : ∀ m ∈ w.history, (m.epoch, m.head) ∈ r.heads

section Recorded

variable {env : Env} {w w' : World} {r : Record} {t : ℕ}

theorem recorded_initial (time : ℕ) (head : String) : (World.initial time head).Recorded (Record.initial head) where
  epoch := rfl
  floor := rfl
  opened := rfl
  due := rfl
  heads m hm := by
    obtain rfl := List.mem_singleton.mp hm
    exact List.mem_singleton.mpr rfl

theorem World.Recorded.of_same (h : w.Recorded r) (hmoment : w'.moment = w.moment) (hpast : w'.past = w.past)
    (hfloor : w'.floor = w.floor) (hopened : w'.opened = w.opened) (hdue : w'.due = w.due) : w'.Recorded r where
  epoch := hmoment ▸ h.epoch
  floor := hfloor ▸ h.floor
  opened := hopened ▸ h.opened
  due := hdue ▸ h.due
  heads m hm := by
    rw [World.history, hmoment, hpast] at hm
    exact h.heads m hm

theorem recorded_land (h : w.Recorded r) (ticket : ℕ) : (w.land ticket).Recorded r := by
  rw [World.land]
  split
  · next ticket' write _ =>
    cases write with
    | put key value => cases key <;> exact h.of_same rfl rfl rfl rfl rfl
    | delete key => exact h.of_same rfl rfl rfl rfl rfl
  · exact h

theorem recorded_pass (h : w.Recorded r) {next : Moment} {r' : Record} (hepoch : next.epoch = r'.epoch)
    (hfloor : r'.floor = r.floor) (hopened : r'.opened = r.opened) (hdue : r'.due = r.due)
    (hnext : (next.epoch, next.head) ∈ r'.heads) (hheads : ∀ x ∈ r.heads, x ∈ r'.heads) :
    (w.pass next).Recorded r' where
  epoch := hepoch
  floor := hfloor ▸ h.floor
  opened := hopened ▸ h.opened
  due := hdue ▸ h.due
  heads m hm := by
    rcases List.mem_cons.mp hm with rfl | hm
    · exact hnext
    · exact hheads _ (h.heads m hm)

/-- **Every answer is recorded.** -/
theorem recorded_answer (h : w.Recorded r) (ht : env.thread = t) (q : Request) (a : Answer q) :
    (answer S env q w).2.Recorded (r.note ⟨t, q, a⟩) := by
  subst ht
  have hsame : ∀ {w' : World}, w'.moment = w.moment → w'.past = w.past → w'.floor = w.floor → w'.opened = w.opened →
      w'.due = w.due → w'.Recorded r := h.of_same
  cases q with
  | getBaseRevision =>
    show (answer S env .getBaseRevision w).2.Recorded r
    have hleft : (answer S env .getBaseRevision w).2 = w := by
      simp only [answer]
      split <;> rfl
    rw [hleft]
    exact h
  | loadCatalogue revision =>
    show (answer S env (.loadCatalogue revision) w).2.Recorded r
    have hleft : (answer S env (.loadCatalogue revision) w).2 = w := by
      simp only [answer]
      split
      · rfl
      · split <;> rfl
    rw [hleft]
    exact h
  | distrust process =>
    refine ⟨h.epoch, h.floor, ?_, h.due, h.heads⟩
    show Function.update w.opened _ (some ((w.opened _).getD w.moment.epoch)) = Function.update r.opened _ _
    rw [h.opened, h.epoch]
  | join process level =>
    have hjoined : (w.join process level).2.Recorded r := by
      simp only [World.join]
      split
      · split
        · exact h
        · exact hsame rfl rfl rfl rfl rfl
      · exact hsame rfl rfl rfl rfl rfl
    refine ⟨hjoined.epoch, hjoined.floor, hjoined.opened, ?_, hjoined.heads⟩
    show Function.update w.due _ (some ((w.due _).getD w.floor)) = Function.update r.due _ _
    rw [h.due, h.floor]
  | settle process flight result =>
    show (w.settle process flight result).Recorded r
    simp only [World.settle]
    split
    · exact hsame rfl rfl rfl rfl rfl
    · exact hsame rfl rfl rfl rfl rfl
  | log event =>
    cases event with
    | invalidated =>
      refine ⟨h.epoch, ?_, h.opened, h.due, h.heads⟩
      show max w.floor ((w.opened _).getD 0) = max r.floor _
      rw [h.floor, h.opened]
    | _ => exact h
  | commit revision =>
    refine recorded_pass h (congrArg (· + 1) h.epoch) rfl rfl rfl ?_ fun x hx => List.mem_cons_of_mem _ hx
    show (w.moment.epoch + 1, revision) ∈ (r.epoch + 1, revision) :: r.heads
    rw [h.epoch]
    exact List.mem_cons_self ..
  | tick milliseconds =>
    have hhead : (w.moment.epoch, w.moment.head) ∈ r.heads := h.heads w.moment (mem_history w)
    exact recorded_pass h h.epoch rfl rfl rfl hhead fun x hx => hx
  | land ticket => exact recorded_land h ticket
  | _ => exact hsame rfl rfl rfl rfl rfl

end Recorded

/-- **Step.** The record of a pool is that of its trace. -/
theorem recorded_step {head : String} {pool : Processes S} {a : Action (machine S) CatalogueError}
    (h : pool.world.Recorded (Record.of head pool.trace)) (ha : Allowed S pool a) :
    (pool.step a).world.Recorded (Record.of head (pool.step a).trace) := by
  rcases Pool.step_cases pool a with ⟨p, -, hs⟩ | ⟨t, env, q, next, rfl, -, hs⟩ | ⟨-, hs⟩
  · rw [hs]
    exact h
  · rw [hs]
    exact recorded_answer h ha q _
  · rw [hs]
    exact h

theorem recorded_run (S : Setting) (time : ℕ) (head : String) {actions : List (Action (machine S) CatalogueError)}
    (hr : Pool.Along (Allowed S) (Pool.init (World.initial time head)) actions) :
    ((Pool.init (World.initial time head) : Processes S).run actions).world.Recorded
      (Record.of head ((Pool.init (World.initial time head) : Processes S).run actions).trace) :=
  Pool.run_invariant (I := fun pool : Processes S => pool.world.Recorded (Record.of head pool.trace))
    (fun _ _ ha h => recorded_step h ha) hr (recorded_initial time head)

/-! ### Calls after an invalidation -/

abbrev returning (t : ℕ) (reply : Reply) : Event signature := ⟨t, .returned reply, ()⟩

abbrev invalidating (t : ℕ) : Event signature := ⟨t, .log .invalidated, ()⟩

abbrev committing (t : ℕ) (revision : String) : Event signature := ⟨t, .commit revision, ()⟩

/-- Where an invalidation began after a commit and has returned true, and a call then starts and returns a catalogue, its
revision was committed by that commit or later, before the call returned. -/
def Converges (trace : List (Event signature)) : Prop :=
  ∀ (after during between earlier : List (Event signature)) (call invalidation writer : ℕ) (reply : Reply)
    (revision : String),
    trace = after ++ returning call reply :: (during ++ invalidating invalidation ::
      (between ++ committing writer revision :: earlier)) →
    (∀ e ∈ committing writer revision :: earlier, e.thread ≠ invalidation) →
    (∀ e ∈ invalidating invalidation :: (between ++ committing writer revision :: earlier), e.thread ≠ call) →
    ∃ t, committing t reply.revision ∈ during ++ invalidating invalidation :: (between ++ [committing writer revision])

/-- **No stale catalogue after an invalidation**, in every run where no call joins a load that began before an invalidation
that has returned true, and none that could not read the generation falls back to a cached snapshot after one. -/
theorem invalidated_converges (S : Setting) (time : ℕ) (head : String)
    {actions : List (Action (machine S) CatalogueError)}
    (hr : Pool.Along (fun pool a => Allowed S pool a ∧ careful S pool a = true) (Pool.init (World.initial time head))
      actions) : Converges ((Pool.init (World.initial time head) : Processes S).run actions).trace := by
  intro after during between earlier call invalidation writer reply revision htrace hbegins hstarts
  have hcareful : Pool.Along (fun pool a => Allowed S pool a ∧ (True → careful S pool a = true))
      (Pool.init (World.initial time head)) actions := hr.mono fun _ _ ha => ⟨ha.1, fun _ => ha.2⟩
  -- the run up to the return, and the run up to the end of the invalidation
  obtain ⟨long, hlong, hreturned⟩ := Pool.exists_run_of_trace hcareful htrace
  have hwindow : ((Pool.init (World.initial time head) : Processes S).run long).trace = (returning call reply :: during) ++
      invalidating invalidation :: (between ++ committing writer revision :: earlier) := hreturned
  obtain ⟨short, hshort, hinvalidated⟩ := Pool.exists_run_of_trace hlong hwindow
  have hknown := known_run S True time head hlong
  have hthen := recorded_run S time head (hshort.mono fun _ _ ha => ha.1)
  have hnow := recorded_run S time head (hlong.mono fun _ _ ha => ha.1)
  obtain ⟨o, ho⟩ : ∃ o, _ = some o := (known_run S True time head hshort).did (invalidating invalidation)
    (by rw [hinvalidated]; exact List.mem_cons_self ..)
  obtain ⟨d, hd, m, hm, hhead, hle⟩ : ∃ d, _ = some d ∧ World.Covers _ reply.revision d :=
    hknown.did (returning call reply) (by rw [hreturned]; exact List.mem_cons_self ..) trivial
  rw [hthen.opened, hinvalidated] at ho
  rw [hnow.due, hreturned] at hd
  have hfirst := hnow.heads m hm
  rw [hreturned, hhead] at hfirst
  -- the invalidation began after the commit, and the call at a floor that is not before it
  have hcommit : (Record.of head (committing writer revision :: earlier)).epoch ≤ o :=
    Record.opened_after (invalidating invalidation :: between) hbegins ho
  have hfloor :
      o ≤ (Record.of head (invalidating invalidation :: (between ++ committing writer revision :: earlier))).floor := by
    show o ≤ max _ ((Record.opened _ invalidation).getD 0)
    have hopened : (Record.of head (between ++ committing writer revision :: earlier)).opened invalidation = some o := ho
    rw [hopened]
    exact le_max_right ..
  have hdue := Record.due_after (returning call reply :: during) hstarts hd
  have hlate : (Record.of head earlier).epoch < m.epoch := by
    have hnext : (Record.of head (committing writer revision :: earlier)).epoch = (Record.of head earlier).epoch + 1 := rfl
    omega
  have hsplit : returning call reply :: (during ++ invalidating invalidation ::
      (between ++ committing writer revision :: earlier)) = (returning call reply :: (during ++
        invalidating invalidation :: (between ++ [committing writer revision]))) ++ earlier := by
    simp only [List.cons_append, List.append_assoc, List.nil_append]
  obtain ⟨t, ht⟩ := Record.committed_after (hsplit ▸ hfirst) hlate
  rcases List.mem_cons.mp ht with heq | hin
  · cases heq
  · exact ⟨t, hin⟩

namespace Sample

def returnedBy : Event signature → Option (ℕ × Reply)
  | ⟨t, .returned reply, _⟩ => some (t, reply)
  | _ => none

def invalidatedBy : Event signature → Option ℕ
  | ⟨t, .log .invalidated, _⟩ => some t
  | _ => none

def committedBy : Event signature → Option (ℕ × String)
  | ⟨t, .commit revision, _⟩ => some (t, revision)
  | _ => none

variable (e : Event signature) {trace : List (Event signature)}

/-- An event of a kind is the one it is taken for. -/
theorem kinds_eq : (∀ x, returnedBy e = some x → e = returning x.1 x.2) ∧
    (∀ t, invalidatedBy e = some t → e = invalidating t) ∧
    ∀ x, committedBy e = some x → e = committing x.1 x.2 := by
  obtain ⟨t, q, a⟩ := e
  refine ⟨fun x h => ?_, fun t' h => ?_, fun x h => ?_⟩
  · cases q with
    | returned reply => cases Option.some.inj h; rfl
    | _ => cases h
  · cases q with
    | log event =>
      cases event with
      | invalidated => cases Option.some.inj h; rfl
      | _ => cases h
    | _ => cases h
  · cases q with
    | commit revision => cases Option.some.inj h; rfl
    | _ => cases h

/-- The events after the latest one of a kind, and before it. -/
def upTo {β : Type} (kind : Event signature → Option β) (trace : List (Event signature)) : List (Event signature) :=
  trace.takeWhile fun e => (kind e).isNone

def before {β : Type} (kind : Event signature → Option β) (trace : List (Event signature)) : List (Event signature) :=
  (trace.dropWhile fun e => (kind e).isNone).tail

theorem split_latest {β : Type} {kind : Event signature → Option β} {event : β → Event signature}
    (hkind : ∀ e x, kind e = some x → e = event x) {x : β}
    (h : (trace.filterMap kind).head? = some x) : trace = upTo kind trace ++ event x :: before kind trace := by
  induction trace with
  | nil => cases h
  | cons e trace ih =>
    cases hk : kind e with
    | none =>
      rw [List.filterMap_cons_none hk] at h
      rw [upTo, before, List.takeWhile_cons_of_pos (by rw [hk]; rfl), List.dropWhile_cons_of_pos (by rw [hk]; rfl)]
      exact congrArg (e :: ·) (ih h)
    | some y =>
      rw [List.filterMap_cons_some hk] at h
      obtain rfl := Option.some.inj h
      rw [upTo, before, List.takeWhile_cons_of_neg (by rw [hk]; simp), List.dropWhile_cons_of_neg (by rw [hk]; simp),
        hkind e y hk]
      rfl

theorem not_converges {x : ℕ × Reply} {t : ℕ} {y : ℕ × String} (hreturned : (trace.filterMap returnedBy).head? = some x)
    (hinvalidated : ((before returnedBy trace).filterMap invalidatedBy).head? = some t)
    (hcommitted : ((before invalidatedBy (before returnedBy trace)).filterMap committedBy).head? = some y)
    (hbegins : ∀ e ∈ committing y.1 y.2 :: before committedBy (before invalidatedBy (before returnedBy trace)),
      e.thread ≠ t) (hstarts : ∀ e ∈ invalidating t :: before invalidatedBy (before returnedBy trace), e.thread ≠ x.1)
    (hnever : ∀ z ∈ trace.filterMap committedBy, z.2 ≠ x.2.revision) : ¬Converges trace := by
  intro hconverges
  have hone := split_latest (fun e => (kinds_eq e).1) hreturned
  have htwo := split_latest (fun e => (kinds_eq e).2.1) hinvalidated
  have hthree := split_latest (fun e => (kinds_eq e).2.2) hcommitted
  rw [hthree] at htwo hstarts
  rw [htwo] at hone
  obtain ⟨u, hu⟩ := hconverges _ _ _ _ _ _ _ _ _ hone hbegins hstarts
  have hmem : committing u x.2.revision ∈ trace := by
    rw [hone]
    refine List.mem_append_right _ (List.mem_cons_of_mem _ ?_)
    simp only [List.mem_append, List.mem_cons, List.not_mem_nil, or_false] at hu ⊢
    rcases hu with hu | hu | hu | hu
    · exact .inl hu
    · exact .inr (.inl hu)
    · exact .inr (.inr (.inl hu))
    · exact .inr (.inr (.inr (.inl hu)))
  exact hnever (u, x.2.revision) (List.mem_filterMap.mpr ⟨_, hmem, rfl⟩) rfl

/-- A catalogue is loaded, and while it is the branch moves on and is invalidated; another call joins the load. -/
def joining : List Move :=
  [.start (.list (service 0) ordinary)] ++ going 0 10 ++ [.start (.commit "bbbbbbb"), .go 1] ++
    [.start (.invalidate (service 0))] ++ going 2 2 ++ landing 0 3 ++ going 2 2 ++ landing 1 4 ++ going 2 2 ++
    [.start (.list (service 0) ordinary)] ++ going 5 1 ++ going 0 3 ++ landing 2 6 ++ going 0 7 ++ going 5 2

/-- The branch moves on and is invalidated, and a catalogue is loaded. -/
def renewing : List Move :=
  [.start (.commit "bbbbbbb"), .go 0] ++ [.start (.invalidate (service 0))] ++ going 1 2 ++ landing 0 2 ++ going 1 2 ++
    landing 1 3 ++ going 1 2 ++ [.start (.list (service 1) ordinary)] ++ going 4 12 ++ landing 2 5 ++ going 4 5 ++
    landing 3 6 ++ going 4 8

end Sample
open Sample in
/-- The branch moves on and is invalidated, and another process returns the new catalogue. -/
theorem invalidated_converges_renewed :
    Converges (after renewing).trace ∧ (4, "bbbbbbb") ∈ ((after renewing).trace.filterMap returnedBy).map fun x =>
      (x.1, x.2.revision) := by
  have hcareful : Pool.Along (fun pool a => careful setting pool a = true) (Pool.init (World.initial 0 "aaaaaaa"))
      (renewing.map Sample.Move.action) := by decide +kernel
  exact ⟨invalidated_converges setting 0 "aaaaaaa" ((along_moves renewing).and hcareful), by decide +kernel⟩

open Sample in
/-- A call joins the load that began before the invalidation, and returns the head from before the commit. -/
theorem joined_stale : ¬∀ (S : Setting) (time : ℕ) (head : String) (actions : List (Action (machine S) CatalogueError)),
    Pool.Along (Allowed S) (Pool.init (World.initial time head)) actions →
      Converges ((Pool.init (World.initial time head) : Processes S).run actions).trace := by
  intro hall
  obtain ⟨hreply, hinvalidated, hcommitted, hbegins, hstarts, hnever⟩ :
      ((after joining).trace.filterMap returnedBy).head? =
        some (5, .catalogue [⟨Artifacts.Sample.metadata .prompt, "body", "prompts/x.md"⟩] "aaaaaaa" 0 .degraded none) ∧
      ((before returnedBy (after joining).trace).filterMap invalidatedBy).head? = some 2 ∧
      ((before invalidatedBy (before returnedBy (after joining).trace)).filterMap committedBy).head? = some (1, "bbbbbbb") ∧
      (∀ e ∈ committing 1 "bbbbbbb" :: before committedBy (before invalidatedBy (before returnedBy (after joining).trace)),
        e.thread ≠ 2) ∧
      (∀ e ∈ invalidating 2 :: before invalidatedBy (before returnedBy (after joining).trace), e.thread ≠ 5) ∧
      ∀ z ∈ (after joining).trace.filterMap committedBy, z.2 ≠ "aaaaaaa" := by
    decide +kernel
  have hstale : ¬Converges (after joining).trace :=
    not_converges hreply hinvalidated hcommitted hbegins hstarts hnever
  exact hstale (hall setting 0 "aaaaaaa" (joining.map Sample.Move.action) (along_moves joining))

end ADT.Catalogue
