import ADT.Sqlite.Outcome

/-!
# Sqlite.Start — the start after a restore that was killed

What `initialize` makes of the disk that a killed restore leaves behind.
-/

namespace ADT.Sqlite

open Faults Faults.Run

section

variable {F : Type} {o o' : Outside F} {φ : Site → Fate} {id : Option String} {w₀ w : World F}

def reliable (_ : Site) : Fate := .done

/-- The legacy bootstrap has nothing to bring: there is a database, or it has been through, or there is no legacy one. -/
def Bootstrapped (o : Outside F) (w : World F) : Prop :=
  (∃ n, isDatabaseFilename n = true ∧ n ∈ w.home) ∨ w.bootstrap = some true ∨
    ∀ n ∈ o.legacy, isDatabaseFilename n = false

theorem databases_isEmpty {d : Directory F} :
    (((d.keys.filter isDatabaseFilename).mergeSort).take (maxDatabases + 1)).isEmpty = true ↔
      ∀ n ∈ d, isDatabaseFilename n = false := by
  rw [List.isEmpty_iff, List.take_eq_nil_iff]
  constructor
  · rintro (h | h) n hn
    · cases h
    · by_contra hc
      have hmem : n ∈ (d.keys.filter isDatabaseFilename).mergeSort := by
        rw [List.mem_mergeSort, List.mem_filter]
        exact ⟨AList.mem_keys.mpr hn, by simpa using hc⟩
      rw [h] at hmem
      cases hmem
  · intro h
    right
    rw [List.eq_nil_iff_forall_not_mem]
    intro n hn
    rw [List.mem_mergeSort, List.mem_filter] at hn
    have hfalse := h n (AList.mem_keys.mp hn.1)
    rw [hn.2] at hfalse
    cases hfalse

section Reliable

variable {α : Type} {site : Site} {effect : World F → Except Thrown α × World F} {part : World F → World F}
  {answer : World F → Except Thrown α} {ret : α → World F → Prop} {thr : Thrown → World F → Prop}
  {gone : World F → Prop}

theorem wp_reliable (h : ∀ r w', effect w = (r, w') → match r with
    | .ok a => ret a w'
    | .error e => thr e w') : Wp (operate site broken effect part) reliable ret thr gone w :=
  wp_operate (fun _ r w' hr => by
    have hend := h r w' hr
    rcases r with e | a
    · exact hend
    · exact hend) (fun h => by rcases h with h | h <;> cases h) fun h => by cases h

theorem wp_asked (h : match answer w with
    | .ok a => ret a w
    | .error e => thr e w) : Wp (inquire site answer) reliable ret thr gone w :=
  wp_reliable fun r w' hr => by
    cases hr
    exact h

theorem wp_asked_attempt {ret : Bool → World F → Prop} (h : ret (answer w).isOk w) :
    Wp (attempt (inquire site answer)) reliable ret thr gone w := by
  refine wp_attempt.mpr (wp_asked ?_)
  rcases ha : answer w with e | a <;> rw [ha] at h <;> exact h

theorem wp_databases {d : World F → Directory F} {ret : List String → World F → Prop}
    (h : ret ((((d w).keys.filter isDatabaseFilename).mergeSort).take (maxDatabases + 1)) w) :
    Wp (databases site d) reliable ret thr gone w :=
  wp_tryCatch.mpr (wp_asked h)

end Reliable

variable {ret : Unit → World F → Prop} {thr : Thrown → World F → Prop} {gone : World F → Prop}

theorem wp_bootstrap (h : Bootstrapped o' w) (hret : ∀ bootstrap, ret () { w with bootstrap })
    (hthr : ∀ e, thr e w) : Wp (bootstrapLegacySqlite o') reliable ret thr gone w := by
  refine wp_bind.mpr (wp_asked (wp_bind.mpr (wp_databases ?_)))
  by_cases hexisting : (((w.home.keys.filter isDatabaseFilename).mergeSort).take (maxDatabases + 1)).isEmpty = true
  · rw [hexisting]
    refine wp_bind.mpr (wp_asked_attempt ?_)
    by_cases hcomplete : w.bootstrap = some true
    · rw [if_pos hcomplete]
      exact hret w.bootstrap
    · rw [if_neg hcomplete]
      refine wp_bind.mpr (wp_databases ?_)
      have hlegacy : (((o'.legacy.keys.filter isDatabaseFilename).mergeSort).take (maxDatabases + 1)).isEmpty = true := by
        rcases h with ⟨n, hn, hmem⟩ | h | h
        · rw [databases_isEmpty.mp hexisting n hmem] at hn
          cases hn
        · exact absurd h hcomplete
        · exact databases_isEmpty.mpr h
      rw [List.isEmpty_iff] at hlegacy
      rw [hlegacy]
      refine wp_bind.mpr (wp_reliable fun r w' hr => ?_)
      rcases hb : w.bootstrap with _ | b
      · rw [hb] at hr
        cases hr
        exact hret (some true)
      · rw [hb] at hr
        cases hr
        exact hthr _
  · rw [Bool.not_eq_true] at hexisting
    rw [hexisting]
    exact hret w.bootstrap

theorem wp_initializeStorage (h : ¬w.Marked → Bootstrapped o' w) (hmarked : w.Marked →
      ∀ w', thr (.error "restore_recovery_required") w')
    (hret : ¬w.Marked → ∀ bootstrap, ret () { w with bootstrap }) (hthr : ¬w.Marked → ∀ e, thr e w) :
    Wp (initializeStorage o') reliable ret thr gone w := by
  refine wp_bind.mpr (wp_asked (wp_bind.mpr (wp_asked (wp_bind.mpr (wp_asked_attempt ?_)))))
  by_cases hm : (w.earlier || (w.safety.isSome && w.marker)) = true
  · rw [if_pos hm]
    have hfound : w.Marked := by simpa [World.Marked] using hm
    exact hmarked hfound _
  · rw [if_neg hm]
    have hfound : ¬w.Marked := by simpa [World.Marked] using hm
    refine wp_bind.mpr (wp_asked_attempt ?_)
    refine wp_ite (fun _ => hthr hfound _) fun _ => wp_bootstrap (h hfound) (hret hfound) (hthr hfound)

end

/-! ### Killed restores -/

/-- The start fails with `restore_recovery_required`, or has exactly the originals or exactly the set. -/
def CrashSafe {F : Type} (o : Outside F) (id : Option String) (w₀ : World F) (start : Exit Thrown Unit × World F) : Prop :=
  start.1 = .thrown (.error "restore_recovery_required") ∨ start.2.live = w₀.live ∨ IsSet o id start.2.live

theorem Recoverable.bootstrapped {F : Type} {o o' : Outside F} {id : Option String} {w₀ w : World F}
    (h : Recoverable o id w₀ w) (hbootstrapped : Bootstrapped o' w₀) (hmarked : ¬w.Marked) : Bootstrapped o' w := by
  have hhome : ∀ n, isDatabaseFilename n = true → (w.live n).isSome = true → n ∈ w.home := fun n hn hsome => by
    rw [World.live, isLive, hn, Bool.true_or, Bool.true_or, if_pos rfl, AList.lookup_isSome] at hsome
    exact hsome
  rcases h.files with hfound | hlive | ⟨directory, metadata, -, hpresent, hlive⟩
  · exact absurd hfound hmarked
  · rcases hbootstrapped with ⟨n, hn, hmem⟩ | hcomplete | hlegacy
    · refine .inl ⟨n, hn, hhome n hn ?_⟩
      rw [hlive, World.live, isLive, hn, Bool.true_or, Bool.true_or, if_pos rfl, AList.lookup_isSome]
      exact hmem
    · exact .inr (.inl (h.bootstrap.trans hcomplete))
    · exact .inr (.inr hlegacy)
  · obtain ⟨database, hdatabase⟩ := List.exists_mem_of_ne_nil _ metadata.some_database
    have hname : database.filename ∈ metadata.names := List.mem_map_of_mem hdatabase
    have hn := metadata.named database hdatabase
    refine .inl ⟨database.filename, hn, hhome _ hn ?_⟩
    rw [hlive, filesOf, if_pos hname, AList.lookup_isSome]
    exact hpresent _ hname

/-- **A restore that is killed** leaves what the next start completes or takes back. -/
theorem restore_crash_safe {F : Type} (o o' : Outside F) (φ : Site → Fate) (id : Option String) (w₀ : World F)
    (hcareful : Careful o φ id w₀) (hsheltered : Sheltered o φ id w₀) (hbootstrapped : Bootstrapped o' w₀)
    (hkilled : (restore o id φ w₀).1 = .killed) :
    CrashSafe o id w₀ (initializeStorage o' reliable (restore o id φ w₀).2.restarted) := by
  have hidle : w₀.operation = .idle := by
    by_contra hne
    have hbusy := refuses_of_ne hne
    have hrun : restore o id φ w₀ = (.thrown (.safe "runner_busy" 409), w₀) := by
      show Run.bind (claimOperation .restore) _ φ w₀ = _
      rw [Run.bind, hbusy]
    rw [hrun] at hkilled
    cases hkilled
  have h := wp_restore hcareful hidle
  unfold Wp at h
  rcases hrun : restore o id φ w₀ with ⟨r | e | _, w⟩ <;> rw [hrun] at h hkilled
  · cases hkilled
  · cases hkilled
  · have hrecoverable : Recoverable o id w₀ w := h hsheltered
    have hwp : Wp (initializeStorage o') reliable
        (fun _ w' => w'.live = w₀.live ∨ IsSet o id w'.live)
        (fun e w' => e = .error "restore_recovery_required" ∨ w'.live = w₀.live ∨ IsSet o id w'.live)
        (fun _ => False) w.restarted := by
      have hfiles : ¬w.Marked → w.live = w₀.live ∨ IsSet o id w.live := fun hmarked =>
        hrecoverable.files.resolve_left hmarked
      exact wp_initializeStorage (hrecoverable.bootstrapped hbootstrapped) (fun _ _ => .inl rfl)
        (fun hmarked _ => hfiles hmarked) fun hmarked _ => .inr (hfiles hmarked)
    unfold Wp at hwp
    unfold CrashSafe
    rcases hstart : initializeStorage o' reliable w.restarted with ⟨r | e | _, w'⟩ <;> rw [hstart] at hwp
    · exact .inr hwp
    · exact hwp.imp_left fun h => by rw [h]
    · exact hwp.elim

/-- A restore that is killed while it waits for the restored databases to be ready. -/
theorem restore_crash_safe_ready : CrashSafe (Sample.outside (fun _ => true) fun _ => []) none Sample.world
      (initializeStorage (Sample.outside (fun _ => true) fun _ => []) reliable
        (restore (Sample.outside (fun _ => true) fun _ => []) none (Sample.fates [] [.ready]) Sample.world).2.restarted) :=
  restore_crash_safe _ _ _ _ _ ⟨fun h => absurd h (by decide), fun h => absurd h (by decide)⟩
    ⟨fun n h => absurd h (by simp [Sample.fates]), fun n h => absurd h (by simp [Sample.fates]),
      fun n h => absurd h (by simp [Sample.fates]), fun h => absurd h (by decide), fun h => absurd h (by decide),
      fun n h => absurd h (by simp [Sample.fates]), by decide, fun n h => absurd h (by simp [Sample.fates]),
      by decide, fun h => absurd h (by decide)⟩
    (.inr (.inl rfl)) (by decide +kernel)

/-- A restore that is killed after the first of two originals was moved away: the start finds the other one alone, and
takes it for the databases. -/
theorem restore_killed_between_originals :
    (restore (Sample.outside (fun _ => true) fun _ => []) none (Sample.fates [] [.moveAway "two.sqlite"])
        Sample.world).1 = .killed ∧
      ¬CrashSafe (Sample.outside (fun _ => true) fun _ => []) none Sample.world
        (initializeStorage (Sample.outside (fun _ => true) fun _ => []) reliable
          (restore (Sample.outside (fun _ => true) fun _ => []) none (Sample.fates [] [.moveAway "two.sqlite"])
            Sample.world).2.restarted) := by
  refine ⟨by decide +kernel, ?_⟩
  generalize hw : (initializeStorage (Sample.outside (fun _ => true) fun _ => []) reliable
    (restore (Sample.outside (fun _ => true) fun _ => []) none (Sample.fates [] [.moveAway "two.sqlite"])
      Sample.world).2.restarted) = start
  have hexit : start.1 = .returned () := by
    subst hw
    decide +kernel
  have hlive : start.2.live "one.sqlite" = none := by
    subst hw
    decide +kernel
  rintro (h | h | ⟨directory, metadata, hselected, -, hset⟩)
  · rw [hexit] at h
    cases h
  · have hfile : Sample.world.live "one.sqlite" = some 1 := by decide +kernel
    rw [← h, hlive] at hfile
    cases hfile
  · have hfile : (selected (Sample.outside (fun _ => true) fun _ => []) none).all
        (fun set => filesOf set.1 set.2.names "one.sqlite" = some 7) = true := by decide +kernel
    rw [hselected, Option.all_some, decide_eq_true_eq, ← hset, hlive] at hfile
    cases hfile

end ADT.Sqlite
