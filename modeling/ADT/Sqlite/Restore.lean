import ADT.Sqlite.Storage
import Mathlib.Data.List.TakeWhile

/-!
# Sqlite.Restore — a restore and its failures

What is in `sqliteHome` when a restore returns, throws or is killed, whatever its file operations, the shutdown and the
readiness of the App Server come to.
-/

namespace ADT.Sqlite

open Faults Faults.Run

variable {F : Type}

/-! ### What the directories hold -/

namespace World

/-- The database files of `sqliteHome`. -/
def live (w : World F) (n : String) : Option F := if isLive n then w.home.lookup n else none

def saved (w : World F) (n : String) : Option F := w.safety.bind (·.lookup n)

def staged (w : World F) (n : String) : Option F := w.stage.bind (·.lookup n)

end World

/-- The files of a directory under the names of a list. -/
def filesOf (d : Directory F) (names : List String) (n : String) : Option F := if n ∈ names then d.lookup n else none

theorem lookup_tear (names : List String) (d : Directory F) (n : String) :
    AList.lookup n (d.tear names) = if n ∈ names then none else d.lookup n := by
  induction names generalizing d with
  | nil => simp [Directory.tear]
  | cons m names ih =>
    show AList.lookup n (Directory.tear (d.erase m) names) = _
    rw [ih]
    by_cases hm : n = m
    · subst hm
      simp
    · simp [hm, AList.lookup_erase_ne hm]

theorem lookup_erase (d : Directory F) (m : String) :
    (fun n => (d.erase m).lookup n) = Function.update (fun n => d.lookup n) m none := by
  funext n
  by_cases hn : n = m
  · subst hn
    simp
  · rw [Function.update_of_ne hn, AList.lookup_erase_ne hn]

theorem lookup_insert (d : Directory F) (m : String) (file : F) :
    (fun n => (d.insert m file).lookup n) = Function.update (fun n => d.lookup n) m (some file) := by
  funext n
  by_cases hn : n = m
  · subst hn
    simp
  · rw [Function.update_of_ne hn, AList.lookup_insert_ne hn]

section Operations

variable {w w' : World F} {n : String} {r : Except Thrown Unit}

theorem live_erase (hn : isLive n = true) :
    World.live { w with home := w.home.erase n } = Function.update w.live n none := by
  funext m
  have h := congrFun (lookup_erase w.home n) m
  by_cases hm : m = n
  · subst hm
    simp [World.live]
  · simp only [World.live, Function.update_of_ne hm] at h ⊢
    rw [h]

theorem live_insert (hn : isLive n = true) (file : F) :
    World.live { w with home := w.home.insert n file } = Function.update w.live n (some file) := by
  funext m
  have h := congrFun (lookup_insert w.home n file) m
  by_cases hm : m = n
  · subst hm
    simp [World.live, hn]
  · simp only [World.live, Function.update_of_ne hm] at h ⊢
    rw [h]

theorem saved_tear {names torn : List String} (hintact : ∀ n ∈ names, n ∉ torn)
    (hnames : ∀ n, (w.saved n).isSome = true → n ∈ names) :
    World.saved { w with safety := w.safety.map (·.tear torn) } = w.saved := by
  funext n
  have htear : World.saved { w with safety := w.safety.map (·.tear torn) } n =
      if n ∈ torn then none else w.saved n := by
    rcases hs : w.safety with _ | d
    · simp [World.saved, hs]
    · simp [World.saved, hs, lookup_tear]
  rw [htear]
  by_cases hn : n ∈ torn
  · rw [if_pos hn]
    rcases hsome : w.saved n with _ | file
    · rfl
    · exact absurd hn (hintact n (hnames n (by rw [hsome]; rfl)))
  · rw [if_neg hn]

theorem renamed_spec {p q : Place} (h : renamed p q n w = (r, w')) :
    (r = .error broken ∧ w' = w ∧ (w.dir q = none ∨ (w.dir p).bind (·.lookup n) = none)) ∨
      ∃ source target file, w.dir p = some source ∧ w.dir q = some target ∧ source.lookup n = some file ∧
        r = .ok () ∧ w' = (w.put (source.erase n) p).put (target.insert n file) q := by
  unfold renamed at h
  split at h
  next source target hp hq =>
    split at h
    next file hfile =>
      cases h
      exact .inr ⟨source, target, file, hp, hq, hfile, rfl, rfl⟩
    next hnone =>
      cases h
      exact .inl ⟨rfl, rfl, .inr (by rw [hp]; exact hnone)⟩
  next hmissing =>
    cases h
    refine .inl ⟨rfl, rfl, ?_⟩
    rcases hp : w.dir p with _ | source
    · exact .inr rfl
    rcases hq : w.dir q with _ | target
    · exact .inl rfl
    · exact absurd hq (hmissing source target hp)

theorem away_spec (hn : isLive n = true) (h : renamed .home .safety n w = (r, w')) :
    (r = .error broken ∧ w' = w) ∨ r = .ok () ∧ ∃ home safety, w' = { w with home, safety := some safety } ∧
      (w.live n).isSome ∧ w'.live = Function.update w.live n none ∧ w'.saved = Function.update w.saved n (w.live n) := by
  obtain ⟨hr, hw, _⟩ | ⟨source, target, file, hp, hq, hfile, rfl, rfl⟩ := renamed_spec h
  · exact .inl ⟨hr, hw⟩
  · cases hp
    have hlive : w.live n = some file := by rw [World.live, if_pos hn, hfile]
    refine .inr ⟨rfl, _, _, rfl, by rw [hlive]; rfl, live_erase hn, ?_⟩
    have hsaved : w.saved = fun m => target.lookup m := by
      funext m
      show Option.bind w.safety _ = _
      rw [show w.safety = some target from hq]
      rfl
    rw [hlive, hsaved]
    exact lookup_insert target n file

theorem back_spec (hn : isLive n = true) (h : renamed .safety .home n w = (r, w')) :
    (r = .error broken ∧ w' = w) ∨ r = .ok () ∧ ∃ home safety, w' = { w with home, safety := some safety } ∧
      w'.live = Function.update w.live n (w.saved n) ∧ w'.saved = Function.update w.saved n none := by
  obtain ⟨hr, hw, _⟩ | ⟨source, target, file, hp, hq, hfile, rfl, rfl⟩ := renamed_spec h
  · exact .inl ⟨hr, hw⟩
  · cases hq
    have hsaved : w.saved = fun m => source.lookup m := by
      funext m
      show Option.bind w.safety _ = _
      rw [show w.safety = some source from hp]
      rfl
    have hsome : w.saved n = some file := by rw [hsaved]; exact hfile
    refine .inr ⟨rfl, _, _, rfl, ?_, ?_⟩
    · rw [hsome]
      exact live_insert hn file
    · rw [hsaved]
      exact lookup_erase source n

theorem place_spec (hn : isLive n = true) (h : renamed .stage .home n w = (r, w')) :
    (r = .error broken ∧ w' = w ∧ w.staged n = none) ∨ r = .ok () ∧ ∃ home stage, w' = { w with home, stage := some stage } ∧
      w'.live = Function.update w.live n (w.staged n) ∧ w'.staged = Function.update w.staged n none := by
  obtain ⟨hr, hw, hnone⟩ | ⟨source, target, file, hp, hq, hfile, rfl, rfl⟩ := renamed_spec h
  · refine .inl ⟨hr, hw, ?_⟩
    rcases hnone with hnone | hnone
    · cases hnone
    · exact hnone
  · cases hq
    have hstaged : w.staged = fun m => source.lookup m := by
      funext m
      show Option.bind w.stage _ = _
      rw [show w.stage = some source from hp]
      rfl
    have hsome : w.staged n = some file := by rw [hstaged]; exact hfile
    refine .inr ⟨rfl, _, _, rfl, ?_, ?_⟩
    · rw [hsome]
      exact live_insert hn file
    · rw [hstaged]
      exact lookup_erase source n

theorem copied_home_spec (hn : isLive n = true) (h : copied w.safety .home n w = (r, w')) :
    (∃ message, r = .error (.error message) ∧ w' = w) ∨ r = .ok () ∧ ∃ home, w' = { w with home } ∧ w.live n = none ∧
      (w.saved n).isSome ∧ w'.live = Function.update w.live n (w.saved n) := by
  unfold copied at h
  split at h
  next file target hsource htarget =>
    cases htarget
    split at h
    · cases h
      exact .inl ⟨_, rfl, rfl⟩
    next hmem =>
      cases h
      have hsaved : w.saved n = some file := hsource
      refine .inr ⟨rfl, _, rfl, ?_, by rw [hsaved]; rfl, ?_⟩
      · rw [World.live, if_pos hn]
        exact AList.lookup_eq_none.mpr hmem
      · rw [hsaved]
        exact live_insert hn file
  · cases h
    exact .inl ⟨_, rfl, rfl⟩

theorem copied_stage_spec {d : Directory F} (h : copied (some d) .stage n w = (r, w')) :
    (∃ e, r = .error e ∧ w' = w) ∨ r = .ok () ∧ ∃ stage, w' = { w with stage } ∧ (d.lookup n).isSome ∧
      w'.staged = Function.update w.staged n (d.lookup n) := by
  unfold copied at h
  split at h
  next file target hsource htarget =>
    split at h
    · cases h
      exact .inl ⟨_, rfl, rfl⟩
    · cases h
      have hstaged : w.staged = fun m => target.lookup m := by
        funext m
        show Option.bind w.stage _ = _
        rw [show w.stage = some target from htarget]
        rfl
      have hsome : d.lookup n = some file := hsource
      refine .inr ⟨rfl, _, rfl, by rw [hsome]; rfl, ?_⟩
      rw [hstaged, hsome]
      exact lookup_insert target n file
  · cases h
    exact .inl ⟨_, rfl, rfl⟩

theorem shattered_stage (shard : Option F) : ∃ stage, shattered shard .stage n w = { w with stage } := by
  unfold shattered
  split
  · split
    · exact ⟨_, rfl⟩
    · exact ⟨_, rfl⟩
  · exact ⟨_, rfl⟩

theorem shattered_home (shard : Option F) : ∃ home, shattered shard .home n w = { w with home } := by
  unfold shattered
  split
  · split
    · exact ⟨_, rfl⟩
    · exact ⟨_, rfl⟩
  · exact ⟨_, rfl⟩

end Operations

/-! ### How a restore stands -/

section Standing

variable (o : Outside F) (φ : Site → Fate) (id : Option String) (w₀ w : World F)

/-- The set that is restored, with its manifest. -/
def selected : Option (Directory F × BackupMetadata) :=
  (id.or o.latest).bind fun id => (o.backups id).bind fun directory => (o.manifest id).bind fun raw =>
    (parseBackupMetadata o.parsesDate id raw).map fun metadata => (directory, metadata)

/-- These are exactly the files of the selected set. -/
def IsSet (files : String → Option F) : Prop :=
  ∃ directory metadata, selected o id = some (directory, metadata) ∧ (∀ n ∈ metadata.names, n ∈ directory) ∧
    files = filesOf directory metadata.names

/-- The names that are moved away, in the order in which that is tried. -/
def originalNames : List String := ((o.listing .listOriginals).1 w₀.home.keys).filter isLive

/-- The files of the set that get their place. -/
def placed (names : List String) : List String := names.takeWhile fun n => decide (φ (.place n) = .done)

/-- A later start finds the marker. -/
def World.Marked : Prop := w.earlier = true ∨ w.safety.isSome = true ∧ w.marker = true

/-- The restore has changed nothing, or has taken everything back. -/
structure Unmoved : Prop where
  operation : w.operation = .restore
  bootstrap : w.bootstrap = w₀.bootstrap
  live : w.live = w₀.live
  current : (w.locals.movedCurrent && w.locals.safety) = false

/-- The restore has been given up. -/
structure GivenUp : Prop where
  operation : w.operation = .restore
  required : w.recoveryRequired = true
  bootstrap : w.bootstrap = w₀.bootstrap
  whole : ∀ n file, w₀.live n = some file → w.live n = some file ∨ w.saved n = some file
  marked : φ .writeMarker = .done → w.Marked

/-- The originals are in the safety copy, and a part of the set is in their place. -/
structure Replacing (directory : Directory F) (names : List String) : Prop where
  operation : w.operation = .restore
  bootstrap : w.bootstrap = w₀.bootstrap
  live : w.live = filesOf directory names
  saved : w.saved = w₀.live
  safety : w.safety.isSome = true
  present : ∀ n ∈ names, (directory.lookup n).isSome = true

/-- A removal of the safety copy that fails once the restored set is in use has removed no original, and a rollback
that cannot list `sqliteHome` finds no restored file there, or one where an original has to go back. -/
structure Careful : Prop where
  intact : (φ .dropReplaced).fails → ∀ n ∈ originalNames o w₀, n ∉ o.torn .dropReplaced
  listed : (φ .listHome).fails → ∀ directory metadata, selected o id = some (directory, metadata) →
    placed φ metadata.names = [] ∨ ∃ n ∈ placed φ metadata.names, n ∈ originalNames o w₀

/-- The process is not killed while the originals or the restored files are on their way, nor after a recovery marker
that could not be written. -/
structure Sheltered : Prop where
  moving : ∀ n, φ (.moveAway n) = .killed → (originalNames o w₀).head? = some n
  returning : ∀ n, φ (.moveBack n) ≠ .killed
  placing : ∀ n, φ (.place n) ≠ .killed
  closing : φ .closeAgain = .killed → ∀ directory metadata, selected o id = some (directory, metadata) →
    placed φ metadata.names = metadata.names
  listing : φ .listHome = .killed → ∀ directory metadata, selected o id = some (directory, metadata) →
    placed φ metadata.names = metadata.names
  clearing : ∀ n, φ (.clear n) ≠ .killed
  reading : φ .listSafety ≠ .killed
  copying : ∀ n, φ (.copyBack n) ≠ .killed
  marking : φ .writeMarker ≠ .killed
  leaving : φ .removeStage = .killed → φ .writeMarker = .done

/-- A start after the process is gone finds the marker, or exactly the originals, or exactly the set. -/
structure Recoverable : Prop where
  bootstrap : w.bootstrap = w₀.bootstrap
  files : w.Marked ∨ w.live = w₀.live ∨ IsSet o id w.live

def Gone : Prop := Sheltered o φ id w₀ → Recoverable o id w₀ w

end Standing

section Steps

variable {o : Outside F} {φ : Site → Fate} {id : Option String} {w₀ w : World F} {α : Type}

theorem Unmoved.gone (h : Unmoved w₀ w) : Gone o φ id w₀ w := fun _ => ⟨h.bootstrap, .inr (.inl h.live)⟩

theorem wp_failClosed {ret : α → World F → Prop} {thr : Thrown → World F → Prop}
    (hthr : ∀ e w', GivenUp φ w₀ w' → w'.locals = w.locals → thr e w') (hbootstrap : w.bootstrap = w₀.bootstrap)
    (hwhole : ∀ n file, w₀.live n = some file → w.live n = some file ∨ w.saved n = some file)
    (hsafety : w.safety.isSome = true) : Wp failClosed φ ret thr (Gone o φ id w₀) w := by
  refine wp_bind.mpr (wp_amend.mpr (wp_bind.mpr (wp_ignore.mpr ?_)))
  refine wp_operate (fun _ r w' hr => ?_) (fun hfails => ?_) fun hkilled hsheltered =>
    absurd hkilled hsheltered.marking
  · dsimp only at hr
    split at hr
    · cases hr
      exact hthr _ _ ⟨rfl, rfl, hbootstrap, hwhole, fun _ => .inr ⟨hsafety, rfl⟩⟩ rfl
    next hnone =>
      rw [hnone] at hsafety
      cases hsafety
  · refine hthr _ _ ⟨rfl, rfl, hbootstrap, hwhole, fun hdone => ?_⟩ rfl
    rw [hdone] at hfails
    rcases hfails with h | h <;> cases h

theorem wp_giveUp {ret : α → World F → Prop} {thr : Thrown → World F → Prop} {e : Thrown}
    (he : e.is "restore_failed_rolled_back" = false) (hthr : ∀ e w', GivenUp φ w₀ w' → w'.locals = w.locals → thr e w')
    (hbootstrap : w.bootstrap = w₀.bootstrap)
    (hwhole : ∀ n file, w₀.live n = some file → w.live n = some file ∨ w.saved n = some file)
    (hsafety : w.safety.isSome = true) : Wp (giveUp e) φ ret thr (Gone o φ id w₀) w := by
  unfold giveUp
  rw [he]
  exact wp_failClosed hthr hbootstrap hwhole hsafety

/-- The originals of a list are in the safety copy, the others where they were. -/
structure Away (w₀ : World F) (names : List String) (w : World F) : Prop where
  operation : w.operation = .restore
  bootstrap : w.bootstrap = w₀.bootstrap
  current : w.locals.movedCurrent = false
  live : w.live = fun n => if n ∈ names then none else w₀.live n
  saved : w.saved = fun n => if n ∈ names then w₀.live n else none
  safety : w.safety.isSome = true

theorem Away.whole {names : List String} (h : Away w₀ names w) (n : String) (file : F) (hn : w₀.live n = some file) :
    w.live n = some file ∨ w.saved n = some file := by
  by_cases hmem : n ∈ names
  · right
    rw [h.saved]
    simp [hmem, hn]
  · left
    rw [h.live]
    simp [hmem, hn]

theorem Away.congr {names names' : List String} (h : Away w₀ names w) (hmem : ∀ n, n ∈ names ↔ n ∈ names') :
    Away w₀ names' w where
  operation := h.operation
  bootstrap := h.bootstrap
  current := h.current
  live := by
    rw [h.live]
    funext n
    simp only [hmem]
  saved := by
    rw [h.saved]
    funext n
    simp only [hmem]
  safety := h.safety

theorem Away.back {n : String} {rest : List String} {home safety : Directory F} (h : Away w₀ (n :: rest) w)
    (hn : n ∉ rest) (hl : World.live { w with home, safety := some safety } = Function.update w.live n (w.saved n))
    (hs : World.saved { w with home, safety := some safety } = Function.update w.saved n none) :
    Away w₀ rest { w with home, safety := some safety } where
  operation := h.operation
  bootstrap := h.bootstrap
  current := h.current
  live := by
    rw [hl, h.live, h.saved]
    funext m
    by_cases hm : m = n
    · subst hm
      simp [hn]
    · simp [hm]
  saved := by
    rw [hs, h.saved]
    funext m
    by_cases hm : m = n
    · subst hm
      simp [hn]
    · simp [hm]
  safety := rfl

def Returned (φ : Site → Fate) (w₀ w : World F) : Prop :=
  Unmoved w₀ w ∨ GivenUp φ w₀ w ∧ w.locals.movedCurrent = false

theorem broken_is : broken.is "restore_failed_rolled_back" = false := rfl

theorem wp_returnOriginals {names : List String} {ret : α → World F → Prop} (haway : Away w₀ names w)
    (hmoved : w.locals.movedNames = names) (hnames : names.Nodup) (hall : ∀ n ∈ names, isLive n = true) :
    Wp (returnOriginals o) φ ret (fun _ => Returned φ w₀) (Gone o φ id w₀) w := by
  refine wp_tryCatch.mpr (wp_bind.mpr (wp_look.mpr (wp_bind.mpr ?_)))
  rw [hmoved]
  have hgiveUp : ∀ {w' : World F} {left : List String}, Away w₀ left w' →
      Wp (giveUp (α := α) broken) φ ret (fun _ => Returned φ w₀) (Gone o φ id w₀) w' := fun hleft =>
    wp_giveUp broken_is (fun _ _ h hlocals => .inr ⟨h, by rw [hlocals]; exact hleft.current⟩) hleft.bootstrap
      hleft.whole hleft.safety
  refine wp_each (I := fun rest w' => Away w₀ rest w') ?_ (fun w' hback => ?_) fun n rest w' hmade hback => ?_
  · exact haway.congr fun n => List.mem_reverse.symm
  · -- every original is back, so that a removal which stops half-way loses none
    have hlive : w'.live = w₀.live := by
      rw [hback.live]
      simp
    refine wp_bind.mpr (wp_operate_ok rfl (fun _ => ?_) (fun _ => ?_) fun _ _ => ⟨hback.bootstrap, .inr (.inl hlive)⟩)
    · exact .inl ⟨hback.operation, hback.bootstrap, hlive, Bool.and_false _⟩
    · refine wp_giveUp broken_is (fun _ _ h hlocals => .inr ⟨h, by rw [hlocals]; exact hback.current⟩)
        hback.bootstrap (fun n file hn => ?_) ?_
      · exact .inl ((congrFun hlive n).trans hn)
      · rw [Option.isSome_map]
        exact hback.safety
  · obtain ⟨made, hmade⟩ := hmade
    have hn : n ∉ rest := by
      have hnodup : (made ++ n :: rest).Nodup := hmade ▸ List.nodup_reverse.mpr hnames
      exact (List.nodup_cons.mp (List.nodup_append.mp hnodup).2.1).1
    have hlive : isLive n = true := hall n (List.mem_reverse.mp (by rw [hmade]; simp))
    refine wp_operate (fun _ r w'' hr => ?_) (fun _ => hgiveUp hback) fun hkilled hsheltered =>
      absurd hkilled (hsheltered.returning n)
    obtain ⟨rfl, rfl⟩ | ⟨rfl, home, safety, rfl, hl, hs⟩ := back_spec hlive hr
    · exact hgiveUp hback
    · exact hback.back hn hl hs

theorem Away.away {n : String} {names : List String} {home safety : Directory F} (h : Away w₀ names w)
    (hn : n ∉ names) (hl : World.live { w with home, safety := some safety } = Function.update w.live n none)
    (hs : World.saved { w with home, safety := some safety } = Function.update w.saved n (w.live n)) :
    Away w₀ (names ++ [n]) { w with home, safety := some safety } where
  operation := h.operation
  bootstrap := h.bootstrap
  current := h.current
  live := by
    rw [hl, h.live]
    funext m
    by_cases hm : m = n
    · subst hm
      simp
    · simp [hm]
  saved := by
    rw [hs, h.live, h.saved]
    funext m
    by_cases hm : m = n
    · subst hm
      simp [hn]
    · simp [hm]
  safety := rfl

theorem mem_originalNames {n : String} : n ∈ originalNames o w₀ ↔ (w₀.live n).isSome = true := by
  have hperm := ((o.listing .listOriginals).2 w₀.home.keys).mem_iff (a := n)
  rw [originalNames, List.mem_filter, hperm, World.live]
  by_cases hn : isLive n = true
  · rw [if_pos hn, AList.lookup_isSome, AList.mem_keys]
    exact and_iff_left hn
  · rw [if_neg hn]
    exact ⟨fun h => absurd h.2 hn, fun h => (by cases h)⟩

theorem nodup_originalNames : (originalNames o w₀).Nodup :=
  (((o.listing .listOriginals).2 w₀.home.keys).nodup_iff.mpr w₀.home.keys_nodup).filter _

theorem live_of_mem_originalNames {n : String} (h : n ∈ originalNames o w₀) : isLive n = true :=
  (List.mem_filter.mp h).2

theorem wp_moveOriginals (haway : Away w₀ [] w) (hmoved : w.locals.movedNames = []) :
    Wp (moveOriginals o (originalNames o w₀)) φ
      (fun _ w' => Away w₀ (originalNames o w₀) w' ∧ w'.staged = w.staged ∧ w'.locals.safety = w.locals.safety)
      (fun _ => Returned φ w₀) (Gone o φ id w₀) w := by
  refine wp_tryCatch.mpr (wp_each (I := fun rest w' => ∃ moved, originalNames o w₀ = moved ++ rest ∧
    Away w₀ moved w' ∧ w'.locals.movedNames = moved ∧ w'.staged = w.staged ∧
    w'.locals.safety = w.locals.safety) ⟨[], rfl, haway, hmoved, rfl, rfl⟩ ?_ ?_)
  · rintro w' ⟨moved, hall, haway', _, hstaged, hsafety⟩
    rw [List.append_nil] at hall
    rw [hall]
    exact ⟨haway', hstaged, hsafety⟩
  · rintro n rest w' - ⟨moved, hall, haway', hmoved', hstaged, hsafety⟩
    have hnodup : (moved ++ n :: rest).Nodup := hall ▸ nodup_originalNames
    have hn : n ∉ moved := fun hmem => (List.disjoint_of_nodup_append hnodup) hmem List.mem_cons_self
    have hlive : isLive n = true := live_of_mem_originalNames (o := o) (by rw [hall]; simp)
    have hback : Wp (returnOriginals (α := Unit) o) φ
        (fun _ w'' => Away w₀ (originalNames o w₀) w'' ∧ w''.staged = w.staged ∧
          w''.locals.safety = w.locals.safety) (fun _ => Returned φ w₀) (Gone o φ id w₀) w' :=
      wp_returnOriginals haway' hmoved' (List.nodup_append.mp hnodup).1 fun m hm =>
        live_of_mem_originalNames (o := o) (by rw [hall]; exact List.mem_append_left _ hm)
    refine wp_bind.mpr (wp_operate (fun _ r w'' hr => ?_) (fun _ => hback) fun hkilled hsheltered => ?_)
    · obtain ⟨rfl, rfl⟩ | ⟨rfl, home, safety, rfl, -, hl, hs⟩ := away_spec hlive hr
      · exact hback
      · refine ⟨moved ++ [n], by rw [hall, List.append_assoc]; rfl, ?_, ?_, hstaged, hsafety⟩
        · exact ⟨haway'.operation, haway'.bootstrap, haway'.current, (haway'.away hn hl hs).live,
            (haway'.away hn hl hs).saved, rfl⟩
        · show w'.locals.movedNames ++ [n] = moved ++ [n]
          rw [hmoved']
    · -- only before the first of them is nothing lost
      have hfirst := hsheltered.moving n hkilled
      have hnil : moved = [] := by
        rcases moved with _ | ⟨m, moved⟩
        · rfl
        · rw [hall] at hfirst
          cases hfirst
          exact absurd List.mem_cons_self hn
      subst hnil
      have hlive' : w'.live = w₀.live := by
        rw [haway'.live]
        simp
      exact ⟨haway'.bootstrap, .inr (.inl hlive')⟩

theorem Away.replacing {directory : Directory F} (h : Away w₀ (originalNames o w₀) w) :
    Replacing w₀ w directory [] where
  operation := h.operation
  bootstrap := h.bootstrap
  live := by
    rw [h.live]
    funext n
    by_cases hn : n ∈ originalNames o w₀
    · simp [hn, filesOf]
    · have hnone : w₀.live n = none := by simpa [mem_originalNames] using hn
      simp [hn, hnone, filesOf]
  saved := by
    rw [h.saved]
    funext n
    by_cases hn : n ∈ originalNames o w₀
    · simp [hn]
    · have hnone : w₀.live n = none := by simpa [mem_originalNames] using hn
      simp [hn, hnone]
  safety := h.safety
  present := fun n hn => by cases hn

theorem Replacing.place {directory : Directory F} {n : String} {names : List String} {home stage : Directory F}
    (h : Replacing w₀ w directory names) (hn : (directory.lookup n).isSome = true)
    (hl : World.live { w with home, stage := some stage } = Function.update w.live n (directory.lookup n)) :
    Replacing w₀ { w with home, stage := some stage } directory (names ++ [n]) where
  operation := h.operation
  bootstrap := h.bootstrap
  live := by
    rw [hl, h.live]
    funext m
    by_cases hm : m = n
    · subst hm
      simp [filesOf]
    · simp [filesOf, hm]
  saved := h.saved
  safety := h.safety
  present := fun m hm => by
    rcases List.mem_append.mp hm with hm | hm
    · exact h.present m hm
    · rw [List.mem_singleton.mp hm]
      exact hn

/-- A rollback has the originals in the safety copy, and finds in `sqliteHome` what got its place. -/
def ToRollBack (o : Outside F) (φ : Site → Fate) (id : Option String) (w₀ w : World F) : Prop :=
  w.locals.movedCurrent = true ∧ w.locals.safety = true ∧ ∃ directory metadata,
    selected o id = some (directory, metadata) ∧ Replacing w₀ w directory (placed φ metadata.names)

theorem placed_of_stop {done rest : List String} {n : String} (hdone : ∀ m ∈ done, φ (.place m) = .done)
    (hn : φ (.place n) ≠ .done) : placed φ (done ++ n :: rest) = done := by
  rw [placed, List.takeWhile_append_of_pos (by simpa using hdone), List.takeWhile_cons_of_neg (by simpa using hn),
    List.append_nil]

theorem placed_of_all {names : List String} (h : ∀ n ∈ names, φ (.place n) = .done) : placed φ names = names :=
  List.takeWhile_eq_self_iff.mpr (by simpa using h)

theorem wp_place {directory : Directory F} {metadata : BackupMetadata}
    (hselected : selected o id = some (directory, metadata)) (hw : Replacing w₀ w directory [])
    (hstaged : w.staged = filesOf directory metadata.names)
    (hpresent : ∀ n ∈ metadata.names, (directory.lookup n).isSome = true)
    (hcurrent : w.locals.movedCurrent = true) (hsafety : w.locals.safety = true) :
    Wp (each (fun n => rename (.place n) .stage .home n) metadata.names) φ
      (fun _ w' => Replacing w₀ w' directory metadata.names ∧ placed φ metadata.names = metadata.names ∧
        w'.locals.movedCurrent = true ∧ w'.locals.safety = true)
      (fun _ w' => ToRollBack o φ id w₀ w') (Gone o φ id w₀) w := by
  refine wp_each (I := fun rest w' => ∃ done, metadata.names = done ++ rest ∧ (∀ m ∈ done, φ (.place m) = .done) ∧
    Replacing w₀ w' directory done ∧ (∀ m ∈ rest, w'.staged m = directory.lookup m) ∧
    w'.locals.movedCurrent = true ∧ w'.locals.safety = true) ?_ ?_ ?_
  · refine ⟨[], rfl, by simp, hw, fun m hm => ?_, hcurrent, hsafety⟩
    rw [hstaged, filesOf, if_pos hm]
  · rintro w' ⟨done, hall, hdone, hreplacing, -, hcurrent', hsafety'⟩
    rw [List.append_nil] at hall
    subst hall
    exact ⟨hreplacing, placed_of_all hdone, hcurrent', hsafety'⟩
  · rintro n rest w' - ⟨done, hall, hdone, hreplacing, hstaged', hcurrent', hsafety'⟩
    have hmem : n ∈ metadata.names := by rw [hall]; simp
    have hlive : isLive n = true := BackupMetadata.live_of_mem hmem
    have hn : n ∉ rest := by
      have hnodup : (done ++ n :: rest).Nodup := hall ▸ metadata.distinct
      exact (List.nodup_cons.mp (List.nodup_append.mp hnodup).2.1).1
    have hfile : w'.staged n = directory.lookup n := hstaged' n List.mem_cons_self
    refine wp_operate (fun hsite r w'' hr => ?_) (fun hfails => ?_) fun hkilled hsheltered =>
      absurd hkilled (hsheltered.placing n)
    · obtain ⟨-, -, hnone⟩ | ⟨rfl, home, stage, rfl, hl, hs⟩ := place_spec hlive hr
      · have hsome := hpresent n hmem
        rw [← hfile, hnone] at hsome
        cases hsome
      · rw [hfile] at hl
        refine ⟨done ++ [n], by rw [hall, List.append_assoc]; rfl, fun m hm => ?_,
          hreplacing.place (hpresent n hmem) hl, fun m hm => ?_, hcurrent', hsafety'⟩
        · rcases List.mem_append.mp hm with hm | hm
          · exact hdone m hm
          · rw [List.mem_singleton.mp hm]
            exact hsite
        · have hne : m ≠ n := fun h => hn (h ▸ hm)
          rw [hs, Function.update_of_ne hne]
          exact hstaged' m (List.mem_cons_of_mem _ hm)
    · have hstop : placed φ metadata.names = done := by
        rw [hall]
        refine placed_of_stop hdone fun h => ?_
        rw [h] at hfails
        rcases hfails with h | h <;> cases h
      exact ⟨hcurrent', hsafety', directory, metadata, hselected, by rw [hstop]; exact hreplacing⟩

/-- The files of the set are in use, exactly. -/
structure Restoring (o : Outside F) (id : Option String) (w₀ w : World F) : Prop where
  operation : w.operation = .restore
  bootstrap : w.bootstrap = w₀.bootstrap
  live : IsSet o id w.live

/-- How the body of a restore throws. -/
def Failed (o : Outside F) (φ : Site → Fate) (id : Option String) (w₀ w : World F) : Prop :=
  Returned φ w₀ w ∨ ToRollBack o φ id w₀ w

theorem Replacing.isSet {directory : Directory F} {metadata : BackupMetadata}
    (h : Replacing w₀ w directory metadata.names) (hselected : selected o id = some (directory, metadata)) :
    IsSet o id w.live :=
  ⟨directory, metadata, hselected, fun n hn => AList.lookup_isSome.mp (h.present n hn), h.live⟩

/-- What is true before anything is moved. -/
structure Waiting (w₀ w : World F) : Prop where
  operation : w.operation = .restore
  bootstrap : w.bootstrap = w₀.bootstrap
  home : w.home = w₀.home
  current : w.locals.movedCurrent = false
  movedNames : w.locals.movedNames = []

theorem Waiting.unmoved (h : Waiting w₀ w) : Unmoved w₀ w where
  operation := h.operation
  bootstrap := h.bootstrap
  live := by
    funext n
    rw [World.live, World.live, h.home]
  current := by rw [h.current]; rfl

/-- The old files give way to those of the backup. -/
theorem wp_replace (hcareful : Careful o φ id w₀) {directory : Directory F} {metadata : BackupMetadata}
    {name : String} (hselected : selected o id = some (directory, metadata)) (hw : Waiting w₀ w)
    (hstaged : w.staged = filesOf directory metadata.names)
    (hpresent : ∀ n ∈ metadata.names, (directory.lookup n).isSome = true) :
    Wp (replace o name metadata) φ (fun _ => Restoring o id w₀) (fun _ => Failed o φ id w₀) (Gone o φ id w₀) w := by
  have hunmoved : ∀ {w' : World F}, Waiting w₀ w' → Failed o φ id w₀ w' := fun h => .inl (.inl h.unmoved)
  refine wp_bind.mpr (wp_tryCatch.mpr (wp_operate_ok rfl (fun _ => ?_) (fun _ => hunmoved hw) fun _ =>
    hw.unmoved.gone))
  refine wp_bind.mpr (wp_operate_ok rfl (fun _ => ?_) (fun _ => hunmoved hw) fun _ => hw.unmoved.gone)
  refine wp_bind.mpr (wp_amend.mpr (wp_bind.mpr ?_))
  generalize hv : ({ w with
    safety := some ∅, marker := false, earlier := w.earlier || w.marker,
    locals := { w.locals with safety := true } } : World F) = v
  have hwaiting : Waiting w₀ v := by
    subst hv
    exact ⟨hw.operation, hw.bootstrap, hw.home, hw.current, hw.movedNames⟩
  have haway : Away w₀ [] v := by
    refine ⟨hwaiting.operation, hwaiting.bootstrap, hwaiting.current, ?_, ?_, by subst hv; rfl⟩
    · rw [hwaiting.unmoved.live]
      simp
    · subst hv
      funext n
      simp [World.saved]
  have hstaged' : v.staged = w.staged := by subst hv; rfl
  have hsafety : v.locals.safety = true := by subst hv; rfl
  refine wp_operate_ok (a := (o.listing .listOriginals).1 v.home.keys) rfl (fun _ => ?_) (fun _ => hunmoved hwaiting)
    fun _ => hwaiting.unmoved.gone
  have hnames : ((o.listing .listOriginals).1 v.home.keys).filter isLive = originalNames o w₀ := by
    rw [originalNames, hwaiting.home]
  rw [hnames]
  refine wp_bind.mpr ((wp_moveOriginals haway hwaiting.movedNames).mono (fun _ w' hmoved => ?_)
    (fun _ _ h => .inl h) fun _ h => h)
  obtain ⟨haway', hstaged'', hsafety'⟩ := hmoved
  have hreplacing : Replacing w₀ w' directory [] := haway'.replacing
  refine wp_bind.mpr (wp_amend.mpr (wp_bind.mpr ((wp_place hselected (w := { w' with
    locals := { w'.locals with movedCurrent := true } }) ?_ ?_ hpresent rfl ?_).mono (fun _ w'' hplaced => ?_)
    (fun _ _ h => .inr h) fun _ h => h)))
  · exact ⟨hreplacing.operation, hreplacing.bootstrap, hreplacing.live, hreplacing.saved,
      hreplacing.safety, hreplacing.present⟩
  · exact hstaged''.trans (hstaged'.trans hstaged)
  · exact hsafety'.trans hsafety
  obtain ⟨hreplacing', hplaced, hcurrent', hsafety''⟩ := hplaced
  have htoRollBack : ToRollBack o φ id w₀ w'' :=
    ⟨hcurrent', hsafety'', directory, metadata, hselected, by rw [hplaced]; exact hreplacing'⟩
  have hgone : Gone o φ id w₀ w'' := fun _ => ⟨hreplacing'.bootstrap, .inr (.inr (hreplacing'.isSet hselected))⟩
  refine wp_bind.mpr (wp_operate_ok rfl (fun _ => ?_) (fun _ => .inr htoRollBack) fun _ => hgone)
  by_cases hready : o.ready .ready = true
  · rw [hready]
    refine wp_bind.mpr (wp_operate_ok rfl (fun _ => ?_) (fun hfails => ?_) fun _ _ => ?_)
    · exact ⟨hreplacing'.operation, hreplacing'.bootstrap, hreplacing'.isSet hselected⟩
    · -- what the removal has left of the safety copy is all of it
      refine .inr ⟨hcurrent', hsafety'', directory, metadata, hselected, hreplacing'.operation,
        hreplacing'.bootstrap, by rw [hplaced]; exact hreplacing'.live, ?_, ?_, by rw [hplaced]; exact hreplacing'.present⟩
      · rw [saved_tear (hcareful.intact hfails) fun n hn => ?_]
        · exact hreplacing'.saved
        · rw [hreplacing'.saved] at hn
          exact mem_originalNames.mpr hn
      · rw [Option.isSome_map]
        exact hreplacing'.safety
    · exact ⟨hreplacing'.bootstrap, .inr (.inr (hreplacing'.isSet hselected))⟩
  · rw [Bool.not_eq_true] at hready
    rw [hready]
    exact .inr htoRollBack

/-! ### The rollback -/

/-- The originals are in the safety copy, and `sqliteHome` holds `base`. -/
structure Clearing (w₀ : World F) (base : String → Option F) (w : World F) : Prop where
  operation : w.operation = .restore
  bootstrap : w.bootstrap = w₀.bootstrap
  live : w.live = base
  saved : w.saved = w₀.live
  safety : w.safety.isSome = true

/-- No original is lost. -/
structure Whole (w₀ w : World F) : Prop where
  bootstrap : w.bootstrap = w₀.bootstrap
  files : ∀ n file, w₀.live n = some file → w.live n = some file ∨ w.saved n = some file
  safety : w.safety.isSome = true

theorem Clearing.whole {base : String → Option F} (h : Clearing w₀ base w) : Whole w₀ w where
  bootstrap := h.bootstrap
  files n file hn := .inr (by rw [h.saved]; exact hn)
  safety := h.safety

def Over (o : Outside F) (φ : Site → Fate) (id : Option String) (w₀ w : World F) : Prop :=
  Unmoved w₀ w ∨ Restoring o id w₀ w ∨ GivenUp φ w₀ w

theorem Whole.giveUp {ret : α → World F → Prop} (h : Whole w₀ w) {e : Thrown}
    (he : e.is "restore_failed_rolled_back" = false) :
    Wp (Sqlite.giveUp e) φ ret (fun _ => Over o φ id w₀) (Gone o φ id w₀) w :=
  wp_giveUp he (fun _ _ h _ => .inr (.inr h)) h.bootstrap h.files h.safety

theorem wp_clear {thr : Thrown → World F → Prop} {base : String → Option F}
    (hw : Clearing w₀ base w) (hthr : ∀ w', Whole w₀ w' → thr broken w') :
    Wp (each (fun n => if isLive n then removeFile (.clear n) n else pure ())
        ((o.listing .listHome).1 w.home.keys)) φ
      (fun _ w' => Clearing w₀ (fun _ => none) w') thr (Gone o φ id w₀) w := by
  have hperm := (o.listing .listHome).2 w.home.keys
  refine wp_each (I := fun rest w' => Clearing w₀ (fun n => if n ∈ rest then base n else none) w') ?_ (fun w' h => ?_)
    fun n rest w' hmade h => ?_
  · refine ⟨hw.operation, hw.bootstrap, ?_, hw.saved, hw.safety⟩
    rw [← hw.live]
    funext n
    by_cases hn : n ∈ w.home.keys
    · rw [if_pos (hperm.mem_iff.mpr hn)]
    · rw [if_neg (fun h => hn (hperm.mem_iff.mp h)), World.live, AList.lookup_eq_none.mpr hn, ite_self]
  · simpa using h
  · obtain ⟨made, hmade⟩ := hmade
    have hn : n ∉ rest := by
      have hnodup : (made ++ n :: rest).Nodup := hmade ▸ hperm.nodup_iff.mpr w.home.keys_nodup
      exact (List.nodup_cons.mp (List.nodup_append.mp hnodup).2.1).1
    refine wp_ite (fun hlive => ?_) fun hlive => ?_
    · refine wp_operate_ok rfl (fun _ => ?_) (fun _ => hthr w' h.whole) fun hkilled hsheltered =>
        absurd hkilled (hsheltered.clearing n)
      refine ⟨h.operation, h.bootstrap, ?_, h.saved, h.safety⟩
      rw [live_erase hlive, h.live]
      funext m
      by_cases hm : m = n
      · subst hm
        simp [hn]
      · simp [hm]
    · refine ⟨h.operation, h.bootstrap, ?_, h.saved, h.safety⟩
      rw [h.live]
      funext m
      by_cases hm : m = n
      · subst hm
        have hnone : w.live m = none := by rw [World.live, if_neg hlive]
        rw [hw.live] at hnone
        simp [hnone]
      · simp [hm]

theorem wp_copyBack {base : String → Option F} (hw : Clearing w₀ base w) {saved : List String}
    (hnodup : saved.Nodup) (hmem : ∀ n, n ∈ saved ↔ (w₀.live n).isSome = true)
    (hbase : (∀ n, base n = none) ∨ ∃ n ∈ saved, base n ≠ none) {thr : Thrown → World F → Prop}
    (hthr : ∀ e w', Whole w₀ w' → e.is "restore_failed_rolled_back" = false → thr e w') :
    Wp (each (fun n => copyFile o (.copyBack n) (·.safety) .home n) saved) φ
      (fun _ w' => Clearing w₀ w₀.live w') thr (Gone o φ id w₀) w := by
  refine wp_each (I := fun rest w' => ∃ copied, saved = copied ++ rest ∧ (∀ n ∈ copied, base n = none) ∧
    Clearing w₀ (fun n => if n ∈ copied then w₀.live n else base n) w') ⟨[], rfl, by simp, by simpa using hw⟩ ?_ ?_
  · rintro w' ⟨copied, hall, hfree, h⟩
    rw [List.append_nil] at hall
    subst hall
    have hnone : ∀ n, base n = none := by
      rcases hbase with hbase | ⟨n, hn, hne⟩
      · exact hbase
      · exact absurd (hfree n hn) hne
    have hlive : (fun n => if n ∈ saved then w₀.live n else base n) = w₀.live := by
      funext n
      by_cases hn : n ∈ saved
      · rw [if_pos hn]
      · rw [if_neg hn, hnone n]
        have hn' : ¬(w₀.live n).isSome = true := fun h => hn ((hmem n).mpr h)
        rw [Bool.not_eq_true, Option.isSome_eq_false_iff, Option.isNone_iff_eq_none] at hn'
        exact hn'.symm
    rw [hlive] at h
    exact h
  · rintro n rest w' - ⟨copied, hall, hfree, h⟩
    have hn : n ∉ copied := fun hc =>
      List.disjoint_of_nodup_append (hall ▸ hnodup : (copied ++ n :: rest).Nodup) hc List.mem_cons_self
    have hlive : isLive n = true := by
      have hsome := (hmem n).mp (by rw [hall]; simp)
      by_contra hc
      rw [World.live, if_neg hc] at hsome
      cases hsome
    refine wp_operate (fun _ r w'' hr => ?_) (fun _ => ?_) fun hkilled hsheltered =>
      absurd hkilled (hsheltered.copying n)
    · obtain ⟨message, rfl, rfl⟩ | ⟨rfl, home, rfl, hnone, -, hl⟩ := copied_home_spec hlive hr
      · exact hthr _ _ h.whole rfl
      · have hbase' : base n = none := by simpa [h.live, hn] using hnone
        refine ⟨copied ++ [n], by rw [hall, List.append_assoc]; rfl, fun m hm => ?_, h.operation,
          h.bootstrap, ?_, h.saved, h.safety⟩
        · rcases List.mem_append.mp hm with hm | hm
          · exact hfree m hm
          · rw [List.mem_singleton.mp hm]
            exact hbase'
        · rw [hl, h.live, h.saved]
          funext m
          by_cases hm : m = n
          · subst hm
            simp
          · simp [hm]
    · obtain ⟨home, hshattered⟩ := shattered_home (w := w') (n := n) (o.shard (.copyBack n))
      rw [hshattered]
      exact hthr _ _ ⟨h.bootstrap, fun n file hn => .inr ((congrFun h.saved n).trans hn), h.safety⟩ rfl

theorem listed_safety {safety : Directory F} (h : w.safety = some safety) :
    (fun w' : World F => match w'.dir .safety with
      | some d => (Except.ok ((o.listing .listSafety).1 d.keys) : Except Thrown (List String))
      | none => .error broken) w = .ok ((o.listing .listSafety).1 safety.keys) := by
  have hdir : w.dir .safety = some safety := h
  dsimp only
  rw [hdir]

theorem wp_copyAll {ret : α → World F → Prop} {thr : Thrown → World F → Prop} {base : String → Option F}
    (hw : Clearing w₀ base w) (hbase : (∀ n, base n = none) ∨ ∃ n, (w₀.live n).isSome = true ∧ base n ≠ none)
    (hthr : ∀ e w', Whole w₀ w' → e.is "restore_failed_rolled_back" = false → thr e w')
    (hback : ∀ e w', Unmoved w₀ w' → e.is "restore_failed_rolled_back" = true → thr e w') :
    Wp (do
      let saved ← names o .listSafety .safety
      each (fun n => copyFile o (.copyBack n) (·.safety) .home n) saved
      let ready ← inquire .readyAgain fun _ => .ok (o.ready .readyAgain)
      if !ready then throw (.error "rollback_readiness_failed")
      removeSafety o .dropRestored
      amend fun w => { w with locals := { w.locals with safety := false } }
      throw (.safe "restore_failed_rolled_back" 503) : Call F α) φ ret thr (Gone o φ id w₀) w := by
  obtain ⟨safety, hsafety⟩ := Option.isSome_iff_exists.mp hw.safety
  have hperm := (o.listing .listSafety).2 safety.keys
  have hlisted : ∀ n, n ∈ (o.listing .listSafety).1 safety.keys ↔ (w₀.live n).isSome = true := fun n => by
    rw [hperm.mem_iff, ← hw.saved, World.saved, hsafety, Option.bind_some, AList.lookup_isSome, AList.mem_keys]
  have hnames := listed_safety (o := o) hsafety
  refine wp_bind.mpr (wp_operate_ok (Prod.ext hnames rfl) (fun _ => ?_) (fun _ => hthr broken w hw.whole rfl)
    fun hkilled hsheltered => absurd hkilled hsheltered.reading)
  have hbase' : (∀ n, base n = none) ∨ ∃ n ∈ (o.listing .listSafety).1 safety.keys, base n ≠ none := by
    rcases hbase with hbase | ⟨n, hn, hne⟩
    · exact .inl hbase
    · exact .inr ⟨n, (hlisted n).mpr hn, hne⟩
  refine wp_bind.mpr ((wp_copyBack hw (hperm.nodup_iff.mpr safety.keys_nodup) hlisted hbase' hthr).mono
    (fun _ w' h => ?_) (fun _ _ h => h) fun _ h => h)
  have hgone : Gone o φ id w₀ w' := fun _ => ⟨h.bootstrap, .inr (.inl h.live)⟩
  refine wp_bind.mpr (wp_operate_ok rfl (fun _ => ?_) (fun _ => hthr broken w' h.whole rfl) fun _ => hgone)
  by_cases hready : o.ready .readyAgain = true
  · rw [hready]
    refine wp_bind.mpr (wp_operate_ok rfl (fun _ => ?_) (fun _ => ?_) fun _ _ => ⟨h.bootstrap, .inr (.inl h.live)⟩)
    · exact hback _ _ ⟨h.operation, h.bootstrap, h.live, Bool.and_false _⟩ rfl
    · -- a removal that stops half-way comes after every original is back
      refine hthr _ _ ⟨h.bootstrap, fun n file hn => .inl ((congrFun h.live n).trans hn), ?_⟩ rfl
      rw [Option.isSome_map]
      exact h.safety
  · rw [Bool.not_eq_true] at hready
    rw [hready]
    exact hthr _ _ h.whole rfl

theorem wp_putBack {ret : α → World F → Prop} (hcareful : Careful o φ id w₀) (hw : ToRollBack o φ id w₀ w) :
    Wp (putBack o) φ ret (fun _ => Over o φ id w₀) (Gone o φ id w₀) w := by
  obtain ⟨-, -, directory, metadata, hselected, h⟩ := hw
  have hclearing : Clearing w₀ (filesOf directory (placed φ metadata.names)) w :=
    ⟨h.operation, h.bootstrap, h.live, h.saved, h.safety⟩
  have hthr : ∀ (e : Thrown) (w' : World F), Whole w₀ w' → e.is "restore_failed_rolled_back" = false →
      Wp (giveUp (α := α) e) φ ret (fun _ => Over o φ id w₀) (Gone o φ id w₀) w' := fun _ _ h he => h.giveUp he
  have hback : ∀ (e : Thrown) (w' : World F), Unmoved w₀ w' → e.is "restore_failed_rolled_back" = true →
      Wp (giveUp (α := α) e) φ ret (fun _ => Over o φ id w₀) (Gone o φ id w₀) w' := fun e w' h he => by
    unfold giveUp
    rw [he]
    exact .inl h
  refine wp_tryCatch.mpr (wp_bind.mpr (wp_tryCatch.mpr ?_))
  refine wp_operate_ok (a := (o.listing .listHome).1 w.home.keys) rfl (fun _ => wp_bind.mpr ?_) (fun hfails => ?_)
    fun hkilled hsheltered => ?_
  · refine (wp_clear hclearing fun w' h => hthr broken w' h rfl).mono (fun _ w' h => ?_) (fun _ _ h => h)
      fun _ h => h
    exact wp_copyAll h (.inl fun _ => rfl) hthr hback
  · refine wp_copyAll hclearing ?_ hthr hback
    obtain hnone | ⟨n, hn, horiginal⟩ := hcareful.listed hfails directory metadata hselected
    · left
      intro n
      rw [hnone]
      rfl
    · right
      have hpresent := h.present n hn
      refine ⟨n, mem_originalNames.mp horiginal, fun hnone => ?_⟩
      rw [filesOf, if_pos hn] at hnone
      rw [hnone] at hpresent
      cases hpresent
  · have hall := hsheltered.listing hkilled directory metadata hselected
    rw [hall] at h
    exact ⟨h.bootstrap, .inr (.inr (h.isSet hselected))⟩

end Steps

end ADT.Sqlite
