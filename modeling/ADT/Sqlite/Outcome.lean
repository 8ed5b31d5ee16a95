import ADT.Sqlite.Restore

/-!
# Sqlite.Outcome — what a restore leaves

A restore that returns or throws has left exactly the backup set, exactly the originals, or a manager that refuses every
further operation with all originals on the disk; unless the safety copy is damaged by its own removal, or restored files
are overlooked by the rollback.
-/

namespace ADT.Sqlite

open Faults Faults.Run

section

variable {F : Type} {o : Outside F} {φ : Site → Fate} {id : Option String} {w₀ w : World F} {α : Type}

theorem wp_inquire {site : Site} {answer : World F → Except Thrown α} {ret : α → World F → Prop}
    {thr : Thrown → World F → Prop} {gone : World F → Prop} (hdone : ∀ a, answer w = .ok a → ret a w)
    (hthr : ∀ e, thr e w) (hgone : gone w) : Wp (inquire site answer) φ ret thr gone w := by
  refine wp_operate (fun _ r w' hr => ?_) (fun _ => hthr broken) fun _ => hgone
  cases hr
  rcases h : answer w with e | a
  · exact hthr e
  · exact hdone a h

theorem Waiting.failed (h : Waiting w₀ w) : Failed o φ id w₀ w := .inl (.inl h.unmoved)

theorem Waiting.restage (h : Waiting w₀ w) (stage : Option (Directory F)) : Waiting w₀ { w with stage } :=
  ⟨h.operation, h.bootstrap, h.home, h.current, h.movedNames⟩

theorem wp_stageBackup {directory : Directory F} {metadata : BackupMetadata} (hw : Waiting w₀ w) :
    Wp (stageBackup o directory metadata) φ
      (fun _ w' => Waiting w₀ w' ∧ w'.staged = filesOf directory metadata.names ∧
        ∀ n ∈ metadata.names, (directory.lookup n).isSome = true)
      (fun _ => Failed o φ id w₀) (Gone o φ id w₀) w := by
  refine wp_bind.mpr (wp_operate_ok rfl (fun _ => ?_) (fun _ => hw.failed) fun _ => hw.unmoved.gone)
  refine wp_bind.mpr (wp_amend.mpr ?_)
  refine wp_each (I := fun rest w' => ∃ done, metadata.names = done ++ rest ∧ Waiting w₀ w' ∧
    w'.staged = filesOf directory done ∧ ∀ n ∈ done, (directory.lookup n).isSome = true) ?_ ?_ ?_
  · refine ⟨[], rfl, ⟨hw.operation, hw.bootstrap, hw.home, hw.current, hw.movedNames⟩, ?_, by simp⟩
    funext n
    simp [World.staged, filesOf]
  · rintro w' ⟨done, hall, h, hstaged, hpresent⟩
    rw [List.append_nil] at hall
    subst hall
    exact ⟨h, hstaged, hpresent⟩
  · rintro n rest w' - ⟨done, hall, h, hstaged, hpresent⟩
    obtain ⟨stage, hshattered⟩ := shattered_stage (w := w') (n := n) (o.shard (.stageCopy n))
    refine wp_operate (fun _ r w'' hr => ?_) (fun _ => ?_) fun _ => ?_
    · obtain ⟨e, rfl, rfl⟩ | ⟨rfl, stage, rfl, hsome, hs⟩ := copied_stage_spec hr
      · exact h.failed
      · refine ⟨done ++ [n], by rw [hall, List.append_assoc]; rfl, h.restage _, ?_, fun m hm => ?_⟩
        · rw [hs, hstaged]
          funext m
          by_cases hm : m = n
          · subst hm
            simp [filesOf]
          · simp [filesOf, hm]
        · rcases List.mem_append.mp hm with hm | hm
          · exact hpresent m hm
          · rw [List.mem_singleton.mp hm]
            exact hsome
    · rw [hshattered]
      exact (h.restage _).failed
    · rw [hshattered]
      exact (h.restage _).unmoved.gone

section Reading

variable {thr : Thrown → World F → Prop} {gone : World F → Prop} (hthr : ∀ e, thr e w) (hgone : gone w)
include hthr hgone

theorem wp_selectBackup {ret : String → World F → Prop} (hret : ∀ name, id.or o.latest = some name → ret name w) :
    Wp (selectBackup o id) φ ret thr gone w := by
  rcases id with _ | name
  · refine wp_bind.mpr (wp_inquire (fun latest hlatest => ?_) hthr hgone)
    cases hlatest
    rcases hl : o.latest with _ | name
    · exact hthr _
    · exact hret name hl
  · exact hret name rfl

theorem wp_safeBackupDirectory {name : String} {ret : Directory F → World F → Prop}
    (hret : ∀ d, o.backups name = some d → ret d w) : Wp (safeBackupDirectory o name) φ ret thr gone w := by
  unfold safeBackupDirectory
  by_cases hid : isBackupId name = true
  · rw [hid]
    refine wp_inquire (fun d hd => ?_) hthr hgone
    rcases hb : o.backups name with _ | directory <;> rw [hb] at hd <;> cases hd
    exact hret d hb
  · rw [Bool.not_eq_true] at hid
    rw [hid]
    exact hthr _

theorem wp_readManifest {name : String} {ret : BackupMetadata → World F → Prop}
    (hret : ∀ raw m, o.manifest name = some raw → parseBackupMetadata o.parsesDate name raw = some m → ret m w) :
    Wp (readManifest o name) φ ret thr gone w := by
  refine wp_bind.mpr (wp_inquire (fun raw hraw => ?_) hthr hgone)
  rcases hm : o.manifest name with _ | raw' <;> rw [hm] at hraw <;> cases hraw
  by_cases hversion : schemaVersion raw ≠ some 1
  · rw [if_pos hversion]
    exact hthr _
  · rw [if_neg hversion]
    rcases hparse : parseBackupMetadata o.parsesDate name raw with _ | m
    · exact hthr _
    · exact hret raw m hm hparse

theorem wp_verify {directory : Directory F} {database : DatabaseRecord} {ret : Unit → World F → Prop}
    (hret : ret () w) : Wp (verify o directory database) φ ret thr gone w := by
  refine wp_bind.mpr (wp_inquire (fun file _ => ?_) hthr hgone)
  by_cases hsum : o.checksum file ≠ database.sha256
  · rw [if_pos hsum]
    exact hthr _
  · rw [if_neg hsum]
    refine wp_bind.mpr (wp_inquire (fun file _ => ?_) hthr hgone)
    refine wp_ite (fun _ => hthr _) fun _ => hret

end Reading

theorem wp_restoreSelected (hcareful : Careful o φ id w₀) (hw : Waiting w₀ w) :
    Wp (restoreSelected o id) φ (fun _ => Restoring o id w₀) (fun _ => Failed o φ id w₀) (Gone o φ id w₀) w := by
  have hthr : ∀ e : Thrown, (fun _ => Failed o φ id w₀) e w := fun _ => hw.failed
  have hgone : Gone o φ id w₀ w := hw.unmoved.gone
  refine wp_bind.mpr (wp_selectBackup hthr hgone fun name hname => ?_)
  refine wp_bind.mpr (wp_safeBackupDirectory hthr hgone fun directory hdirectory => ?_)
  refine wp_bind.mpr (wp_readManifest hthr hgone fun raw metadata hraw hparse => ?_)
  have hselected : selected o id = some (directory, metadata) := by
    rw [selected, hname, Option.bind_some, hdirectory, Option.bind_some, hraw, Option.bind_some, hparse]
    rfl
  refine wp_bind.mpr (wp_each (I := fun _ w' => w' = w) rfl (fun w' h => ?_) fun database _ w' _ h => ?_)
  · rw [h]
    refine wp_bind.mpr ((wp_stageBackup hw).mono (fun _ w'' h => ?_) (fun _ _ h => h) fun _ h => h)
    exact wp_replace hcareful hselected h.1 h.2.1 h.2.2
  · rw [h]
    exact wp_verify hthr hgone rfl

theorem wp_rollBack {ret : α → World F → Prop} (hcareful : Careful o φ id w₀) {e : Thrown}
    (hw : Failed o φ id w₀ w) : Wp (rollBack o e) φ ret (fun _ => Over o φ id w₀) (Gone o φ id w₀) w := by
  refine wp_bind.mpr (wp_look.mpr ?_)
  rcases hw with (h | ⟨h, hcurrent⟩) | h
  · rw [h.current]
    exact .inl h
  · rw [hcurrent]
    exact .inr (.inr h)
  · have hwhole := h
    obtain ⟨hcurrent, hsafety, directory, metadata, hselected, hreplacing⟩ := hwhole
    rw [hcurrent, hsafety]
    refine wp_bind.mpr (wp_tryCatch.mpr (wp_operate_ok rfl (fun _ => wp_putBack hcareful h) (fun _ => ?_)
      fun hkilled hsheltered => ?_))
    · exact wp_failClosed (fun _ _ h _ => .inr (.inr h)) hreplacing.bootstrap
        (fun n file hn => .inr ((congrFun hreplacing.saved n).trans hn)) hreplacing.safety
    · have hall := hsheltered.closing hkilled directory metadata hselected
      rw [hall] at hreplacing
      exact ⟨hreplacing.bootstrap, .inr (.inr (hreplacing.isSet hselected))⟩

/-- The originals or the set are in use. -/
structure InUse (o : Outside F) (id : Option String) (w₀ w : World F) : Prop where
  bootstrap : w.bootstrap = w₀.bootstrap
  files : w.live = w₀.live ∨ IsSet o id w.live

/-- How `restore` ends. -/
def Settled (o : Outside F) (φ : Site → Fate) (id : Option String) (w₀ w : World F) : Prop :=
  InUse o id w₀ w ∨ GivenUp φ w₀ w

theorem InUse.gone (h : InUse o id w₀ w) : Gone o φ id w₀ w := fun _ => ⟨h.bootstrap, .inr h.files⟩

theorem InUse.congr {w' : World F} (h : InUse o id w₀ w) (hhome : w'.home = w.home)
    (hbootstrap : w'.bootstrap = w.bootstrap) : InUse o id w₀ w' := by
  have hlive : w'.live = w.live := by
    funext n
    rw [World.live, World.live, hhome]
  exact ⟨hbootstrap.trans h.bootstrap, by rw [hlive]; exact h.files⟩

theorem Over.settled (h : Over o φ id w₀ w) : Settled o φ id w₀ w := by
  rcases h with h | h | h
  · exact .inl ⟨h.bootstrap, .inl h.live⟩
  · exact .inl ⟨h.bootstrap, .inr h.live⟩
  · exact .inr h

theorem Settled.restage (h : Settled o φ id w₀ w) (stage : Option (Directory F)) :
    Settled o φ id w₀ { w with stage } := by
  rcases h with hinUse | hgivenUp
  · exact .inl (hinUse.congr rfl rfl)
  · exact .inr ⟨hgivenUp.operation, hgivenUp.required, hgivenUp.bootstrap, hgivenUp.whole, hgivenUp.marked⟩

section

variable {thr : Thrown → World F → Prop} {ret : Unit → World F → Prop} (hw : Settled o φ id w₀ w)
  (hret : ∀ w', Settled o φ id w₀ w' → ret () w') (hthr : ∀ w', Settled o φ id w₀ w' → thr broken w')

include hw hret hthr

theorem wp_cleanUp_safety : Wp (do
      let w ← look
      if !w.recoveryRequired && w.locals.safety then removeSafety o .removeSafety
      let w ← look
      if !w.recoveryRequired then amend fun w => { w with operation := .idle } : Call F Unit)
      φ ret thr (Gone o φ id w₀) w := by
  -- when the safety copy was to be removed, it has been
  have hidle : ∀ v : World F, Settled o φ id w₀ v → Wp (do
        let w ← look
        if !w.recoveryRequired then amend fun w => { w with operation := .idle } : Call F Unit)
        φ ret thr (Gone o φ id w₀) v := fun v hv => by
    refine wp_bind.mpr (wp_look.mpr ?_)
    rcases hrequired : v.recoveryRequired with _ | _
    · rcases hv with hinUse | hgivenUp
      · exact hret _ (.inl (hinUse.congr rfl rfl))
      · rw [hgivenUp.required] at hrequired
        cases hrequired
    · exact hret _ hv
  refine wp_bind.mpr (wp_look.mpr ?_)
  rcases hremove : (!w.recoveryRequired && w.locals.safety) with _ | _
  · exact hidle w hw
  · rcases hw with hinUse | hgivenUp
    · have hgone : ∀ v : World F, InUse o id w₀ v → Gone o φ id w₀ v := fun _ h => h.gone
      exact wp_bind.mpr (wp_operate_ok rfl (fun _ => hidle _ (.inl (hinUse.congr rfl rfl)))
        (fun _ => hthr _ (.inl (hinUse.congr rfl rfl))) fun _ => hgone _ (hinUse.congr rfl rfl))
    · rw [hgivenUp.required] at hremove
      cases hremove

theorem wp_cleanUp : Wp (cleanUp o) φ ret thr (Gone o φ id w₀) w := by
  refine wp_bind.mpr (wp_look.mpr ?_)
  rcases w.locals.stage with _ | _
  · exact wp_cleanUp_safety hw hret hthr
  · refine wp_bind.mpr (wp_operate_ok rfl (fun _ => wp_cleanUp_safety (hw.restage none) hret hthr)
      (fun _ => hthr _ (hw.restage _)) fun hkilled hsheltered => ?_)
    rcases hw with hinUse | hgivenUp
    · exact ⟨hinUse.bootstrap, .inr hinUse.files⟩
    · exact ⟨hgivenUp.bootstrap, .inl (hgivenUp.marked (hsheltered.leaving hkilled))⟩

end

theorem wp_restore (hcareful : Careful o φ id w₀) (hidle : w₀.operation = .idle) :
    Wp (restore o id) φ (fun _ => Settled o φ id w₀) (fun _ => Settled o φ id w₀) (Gone o φ id w₀) w₀ := by
  refine wp_bind.mpr (wp_bind.mpr (wp_look.mpr ?_))
  rw [if_neg (not_not_intro hidle)]
  refine wp_amend.mpr (wp_always.mpr (wp_tryCatch.mpr ?_))
  have hwaiting : Waiting w₀ ({ w₀ with operation := .restore, locals := {} } : World F) := ⟨rfl, rfl, rfl, rfl, rfl⟩
  refine (wp_restoreSelected hcareful hwaiting).mono (fun _ w' h => ?_) (fun e w' h => ?_) fun _ h => h
  · exact wp_cleanUp (.inl ⟨h.bootstrap, .inr h.live⟩) (fun _ h => h) fun _ h => h
  · have hrollBack : Wp (rollBack o e) φ (fun (_ : Restored) _ => False) (fun _ => Over o φ id w₀) (Gone o φ id w₀) w' :=
      wp_rollBack hcareful h
    exact hrollBack.mono (fun _ _ h => h.elim) (fun _ w'' h => wp_cleanUp h.settled (fun _ h => h) fun _ h => h)
      fun _ h => h

/-! ### All or nothing -/

def Refuses (w : World F) : Prop :=
  ∀ operation φ, claimOperation operation φ w = (.thrown (.safe "runner_busy" 409), w)

theorem refuses_of_ne {w : World F} (h : w.operation ≠ .idle) : Refuses w := fun operation φ => by
  have hwp : Wp (claimOperation operation : Call F Unit) φ (fun _ _ => False)
      (fun e w' => e = .safe "runner_busy" 409 ∧ w' = w) (fun _ => False) w := by
    refine wp_bind.mpr (wp_look.mpr ?_)
    rw [if_pos h]
    exact ⟨rfl, rfl⟩
  unfold Wp at hwp
  rcases hrun : claimOperation operation φ w with ⟨a | e | _, w'⟩ <;> rw [hrun] at hwp
  · exact hwp.elim
  · rw [hwp.1, hwp.2]
  · exact hwp.elim

/-- The database files are exactly the set, or exactly what they were, or recovery is required, nothing more is admitted
and every original is in `sqliteHome` or in the safety copy. -/
def AllOrNothing (o : Outside F) (id : Option String) (w₀ w : World F) : Prop :=
  IsSet o id w.live ∨ w.live = w₀.live ∨ w.recoveryRequired = true ∧ Refuses w ∧
    ∀ n file, w₀.live n = some file → w.live n = some file ∨ w.saved n = some file

theorem Settled.allOrNothing (h : Settled o φ id w₀ w) : AllOrNothing o id w₀ w := by
  rcases h with hinUse | hgivenUp
  · exact hinUse.files.symm.imp_right .inl
  · refine .inr (.inr ⟨hgivenUp.required, refuses_of_ne ?_, hgivenUp.whole⟩)
    rw [hgivenUp.operation]
    decide

end

/-- A restore that returns or throws is all or nothing, where the removal of the safety copy and the listing of
`sqliteHome` do not get in the way of the rollback. -/
theorem restore_all_or_nothing {F : Type} (o : Outside F) (φ : Site → Fate) (id : Option String) (w₀ : World F)
    (hcareful : Careful o φ id w₀) (hexit : (restore o id φ w₀).1 ≠ .killed) :
    AllOrNothing o id w₀ (restore o id φ w₀).2 := by
  by_cases hidle : w₀.operation = .idle
  · have h := wp_restore hcareful hidle
    unfold Wp at h
    rcases hrun : restore o id φ w₀ with ⟨r | e | _, w'⟩
    · rw [hrun] at h
      exact Settled.allOrNothing h
    · rw [hrun] at h
      exact Settled.allOrNothing h
    · rw [hrun] at hexit
      exact absurd rfl hexit
  · have hbusy : restore o id φ w₀ = (.thrown (.safe "runner_busy" 409), w₀) := by
      show Run.bind (claimOperation .restore) _ φ w₀ = _
      rw [Run.bind, refuses_of_ne hidle]
    rw [hbusy]
    exact .inr (.inl rfl)

namespace Sample

def backupId : String := "b-20260102T030405Z-0123456789ab"

def digest : String := String.ofList (List.replicate 64 'a')

def manifest : Json :=
  .obj [("schemaVersion", .num 1), ("backupId", .str backupId), ("createdAt", .str "2026-01-02T03:04:05.000Z"),
    ("runnerVersion", .str "1.0.0"), ("codexVersion", .str "0.159.3"),
    ("databases", .arr [.obj [("filename", .str "one.sqlite"), ("size", .num 7), ("sha256", .str digest)]])]

/-- One backup set, of the database `one.sqlite`. -/
def outside (ready : Site → Bool) (torn : Site → List String) : Outside ℕ where
  latest := some backupId
  backups id := if id = backupId then some ((∅ : Directory ℕ).insert "one.sqlite" 7) else none
  manifest id := if id = backupId then some manifest else none
  checksum _ := digest
  size n := n
  parsesDate _ := true
  listing _ := ⟨fun names => names, fun _ => .refl _⟩
  torn := torn
  shard _ := none
  ready := ready
  network := false
  legacy := ∅

/-- A manager whose `sqliteHome` has two databases. -/
def world : World ℕ where
  operation := .idle
  recoveryRequired := false
  locals := {}
  home := ((∅ : Directory ℕ).insert "two.sqlite" 2).insert "one.sqlite" 1
  safety := none
  marker := false
  earlier := false
  stage := none
  bootstrap := some true

/-- Every call gets through but those of a list. -/
def fates (failing killed : List Site) (site : Site) : Fate :=
  if site ∈ failing then .failed else if site ∈ killed then .killed else .done

end Sample

/-- A restored set that does not become ready, and its rollback. -/
theorem restore_all_or_nothing_rolled_back :
    (restore (Sample.outside (fun site => site == .readyAgain) fun _ => []) none (Sample.fates [] []) Sample.world).1 ≠
        .killed ∧
      AllOrNothing (Sample.outside (fun site => site == .readyAgain) fun _ => []) none Sample.world
        (restore (Sample.outside (fun site => site == .readyAgain) fun _ => []) none (Sample.fates [] []) Sample.world).2 :=
  have hexit : (restore (Sample.outside (fun site => site == .readyAgain) fun _ => []) none (Sample.fates [] [])
      Sample.world).1 ≠ .killed := by decide +kernel
  ⟨hexit, restore_all_or_nothing _ _ _ _
    ⟨fun h => absurd h (by decide), fun h => absurd h (by decide)⟩ hexit⟩

/-- The restored database is in use when the removal of the safety copy takes one original and fails: the rollback puts
back the other one and reports that everything is as it was. -/
theorem restore_loses_original :
    (restore (Sample.outside (fun _ => true) fun _ => ["one.sqlite"]) none (Sample.fates [.dropReplaced] [])
        Sample.world).1 = .thrown (.safe "restore_failed_rolled_back" 503) ∧
      ¬AllOrNothing (Sample.outside (fun _ => true) fun _ => ["one.sqlite"]) none Sample.world
        (restore (Sample.outside (fun _ => true) fun _ => ["one.sqlite"]) none (Sample.fates [.dropReplaced] [])
          Sample.world).2 := by
  refine ⟨by decide +kernel, ?_⟩
  generalize hw : (restore (Sample.outside (fun _ => true) fun _ => ["one.sqlite"]) none
    (Sample.fates [.dropReplaced] []) Sample.world).2 = w
  have hlive : w.live "one.sqlite" = none := by
    subst hw
    decide +kernel
  have hrequired : w.recoveryRequired = false := by
    subst hw
    decide +kernel
  rintro (⟨directory, metadata, hselected, -, hset⟩ | h | ⟨h, _⟩)
  · have hfile : (selected (Sample.outside (fun _ => true) fun _ => ["one.sqlite"]) none).all
        (fun set => filesOf set.1 set.2.names "one.sqlite" = some 7) = true := by decide +kernel
    rw [hselected, Option.all_some, decide_eq_true_eq, ← hset, hlive] at hfile
    cases hfile
  · have hfile : Sample.world.live "one.sqlite" = some 1 := by decide +kernel
    rw [← h, hlive] at hfile
    cases hfile
  · rw [hrequired] at h
    cases h

end ADT.Sqlite
