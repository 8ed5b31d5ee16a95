import ADT.Sqlite.Start

/-!
# Sqlite.Bootstrap — the legacy databases are brought over, and the process may be killed

What `bootstrapLegacySqlite` leaves in an empty `sqliteHome`, over any number of runs of which each may be killed at any
of its calls.  The files are promoted one at a time, and a run that finds a database takes the work for done.
-/

namespace ADT.Sqlite

open Faults Faults.Run

/-- Every call is done, but for the one at which the process is killed. -/
def killedAt (point : Option Site) (site : Site) : Fate := if point = some site then .killed else .done

/-- A run: where it is killed, and what a call that does not get through leaves behind. -/
structure Attempt (F : Type) where
  killed : Option Site
  torn : Site → List String
  shard : Site → Option F

section

variable {F : Type}

def Attempt.outside (a : Attempt F) (o : Outside F) : Outside F := { o with torn := a.torn, shard := a.shard }

/-- One run of `bootstrapLegacySqlite`, in a process of its own. -/
def Attempt.run (a : Attempt F) (o : Outside F) (w : World F) : Exit Thrown Unit × World F :=
  bootstrapLegacySqlite (a.outside o) (killedAt a.killed) w.restarted

/-- What is on the disk after some runs. -/
def afterAttempts (o : Outside F) (w : World F) (attempts : List (Attempt F)) : World F :=
  attempts.foldl (fun w a => (a.run o w).2) w

/-- `databases(config.codexHome)` -/
def legacyDatabases (o : Outside F) : List String :=
  ((o.legacy.keys.filter isDatabaseFilename).mergeSort).take (maxDatabases + 1)

/-- The files that are brought over, in their order. -/
def legacyFiles (o : Outside F) : List String := ((legacyDatabases o).flatMap sidecars).filter (· ∈ o.legacy)

/-- Every legacy database with its `-wal` and `-shm` files, and the completion marker. -/
def BroughtOver (o : Outside F) (w : World F) : Prop :=
  w.bootstrap = some true ∧ ∀ database ∈ o.legacy, isDatabaseFilename database = true →
    ∀ n ∈ sidecars database, n ∈ o.legacy → w.home.lookup n = o.legacy.lookup n

/-- There is neither a database nor the completion marker. -/
def Unstarted (w : World F) : Prop := (∀ n ∈ w.home, isDatabaseFilename n = false) ∧ w.bootstrap ≠ some true

/-- A point between the promotion of the first file and that of the completion marker. -/
def Midway (o : Outside F) (point : Option Site) : Prop :=
  legacyDatabases o ≠ [] ∧ (legacyDatabases o).length ≤ maxDatabases ∧
    ((∃ n ∈ (legacyFiles o).tail, point = some (.promote n)) ∨ point = some .stagedMarker ∨ point = some .promoteMarker)

/-- No run that has to bring the databases over is killed midway. -/
def NoneMidway (o : Outside F) (w : World F) (attempts : List (Attempt F)) : Prop :=
  ∀ before a after, attempts = before ++ a :: after → Unstarted (afterAttempts o w before) → ¬ Midway o a.killed

/-! ### The files that are brought over -/

theorem stem_eq_none {cs end_ : List Char} (h : end_ = "-wal".toList ∨ end_ = "-shm".toList) : stem (cs ++ end_) = none := by
  have hextension : ∀ extension : List Char, extension = ".sqlite".toList ∨ extension = ".db".toList →
      ¬ extension.isSuffixOf ((cs ++ end_).map Char.toLower) = true := by
    intro extension hextension hsuffix
    obtain ⟨front, hfront⟩ := List.isSuffixOf_iff_suffix.mp hsuffix
    have hlast := congrArg List.getLast? hfront
    rw [List.map_append, List.getLast?_append, List.getLast?_append] at hlast
    rcases hextension with rfl | rfl
    · rcases h with rfl | rfl
      · exact absurd (Option.some.inj (hlast : some 'e' = some 'l')) (by decide)
      · exact absurd (Option.some.inj (hlast : some 'e' = some 'm')) (by decide)
    · rcases h with rfl | rfl
      · exact absurd (Option.some.inj (hlast : some 'b' = some 'l')) (by decide)
      · exact absurd (Option.some.inj (hlast : some 'b' = some 'm')) (by decide)
  unfold stem
  dsimp only
  rw [if_neg (hextension _ (.inl rfl)), if_neg (hextension _ (.inr rfl))]

theorem not_database_append {suffix : String} (h : suffix = "-wal" ∨ suffix = "-shm") (name : String) :
    isDatabaseFilename (name ++ suffix) = false := by
  have hend : suffix.toList = "-wal".toList ∨ suffix.toList = "-shm".toList := by
    rcases h with rfl | rfl
    · exact .inl rfl
    · exact .inr rfl
  rw [isDatabaseFilename, String.toList_append, stem_eq_none hend]

theorem sidecars_inj {d d' n : String} (hd : isDatabaseFilename d = true) (hd' : isDatabaseFilename d' = true)
    (h : n ∈ sidecars d) (h' : n ∈ sidecars d') : d = d' := by
  have hwal := fun name => not_database_append (.inl rfl : "-wal" = "-wal" ∨ "-wal" = "-shm") name
  have hshm := fun name => not_database_append (.inr rfl : "-shm" = "-wal" ∨ "-shm" = "-shm") name
  have hdifferent : ∀ a b : String, a ++ "-wal" ≠ b ++ "-shm" := by
    intro a b hab
    have hlast := congrArg (fun s : String => s.toList.getLast?) hab
    simp only [String.toList_append, List.getLast?_append] at hlast
    exact absurd (Option.some.inj (hlast : some 'l' = some 'm')) (by decide)
  simp only [sidecars, List.mem_cons, List.not_mem_nil, or_false] at h h'
  rcases h with rfl | rfl | rfl
  · rcases h' with h | rfl | rfl
    · exact h
    · rw [hwal] at hd
      cases hd
    · rw [hshm] at hd
      cases hd
  · rcases h' with rfl | h | h
    · rw [hwal] at hd'
      cases hd'
    · exact String.append_left_inj _ |>.mp h
    · exact absurd h (hdifferent _ _)
  · rcases h' with rfl | h | h
    · rw [hshm] at hd'
      cases hd'
    · exact absurd h.symm (hdifferent _ _)
    · exact String.append_left_inj _ |>.mp h

theorem nodup_sidecars (name : String) : (sidecars name).Nodup := by
  have hlonger : ∀ suffix : String, 0 < suffix.toList.length → name ≠ name ++ suffix := by
    intro suffix hsuffix h
    have hlength := congrArg (fun s : String => s.toList.length) h
    simp only [String.toList_append, List.length_append] at hlength
    omega
  have hdifferent : name ++ "-wal" ≠ name ++ "-shm" := fun h => absurd (String.append_right_inj _ |>.mp h) (by decide)
  rw [sidecars, List.nodup_cons, List.nodup_cons]
  refine ⟨?_, ?_, List.nodup_singleton _⟩
  · rw [List.mem_cons, List.mem_singleton, not_or]
    exact ⟨hlonger _ (by decide), hlonger _ (by decide)⟩
  · rw [List.mem_singleton]
    exact hdifferent

section

variable {o : Outside F}

theorem mem_legacyDatabases {n : String} (h : n ∈ legacyDatabases o) : n ∈ o.legacy ∧ isDatabaseFilename n = true := by
  have hmem := List.mem_mergeSort.mp (List.mem_of_mem_take h)
  obtain ⟨hkeys, hname⟩ := List.mem_filter.mp hmem
  exact ⟨AList.mem_keys.mp hkeys, hname⟩

theorem legacyDatabases_complete (hfew : (legacyDatabases o).length ≤ maxDatabases) {n : String} (hn : n ∈ o.legacy)
    (hname : isDatabaseFilename n = true) : n ∈ legacyDatabases o := by
  have hall : legacyDatabases o = (o.legacy.keys.filter isDatabaseFilename).mergeSort := by
    refine List.take_of_length_le ?_
    rw [legacyDatabases, List.length_take] at hfew
    omega
  rw [hall, List.mem_mergeSort, List.mem_filter]
  exact ⟨AList.mem_keys.mpr hn, hname⟩

theorem nodup_legacy : ((legacyDatabases o).flatMap sidecars).Nodup := by
  have hdatabases : (legacyDatabases o).Nodup :=
    (((List.mergeSort_perm _ _).nodup_iff.mpr ((AList.keys_nodup o.legacy).filter _))).sublist (List.take_sublist _ _)
  rw [List.nodup_flatMap]
  refine ⟨fun n _ => nodup_sidecars n, ?_⟩
  refine hdatabases.imp_of_mem fun hd hd' hne n h h' => hne ?_
  exact sidecars_inj (mem_legacyDatabases hd).2 (mem_legacyDatabases hd').2 h h'

theorem nodup_legacyFiles : (legacyFiles o).Nodup := nodup_legacy.filter _

theorem legacyFiles_head (h : legacyDatabases o ≠ []) :
    ∃ first rest, legacyFiles o = first :: rest ∧ isDatabaseFilename first = true := by
  obtain ⟨first, others, hdatabases⟩ := List.exists_cons_of_ne_nil h
  obtain ⟨hlegacy, hname⟩ := mem_legacyDatabases (o := o) (hdatabases ▸ List.mem_cons_self : first ∈ legacyDatabases o)
  refine ⟨first, ([first ++ "-wal", first ++ "-shm"] ++ others.flatMap sidecars).filter (· ∈ o.legacy), ?_, hname⟩
  rw [legacyFiles, hdatabases]
  exact List.filter_cons_of_pos (decide_eq_true hlegacy)

end

/-! ### A run that is killed at one point -/

section

variable {α : Type} {p : Option Site} {site : Site} {effect : World F → Except Thrown α × World F}
  {part : World F → World F} {answer : World F → Except Thrown α} {ret : α → World F → Prop}
  {thr : Thrown → World F → Prop} {gone : World F → Prop} {w : World F}

theorem wp_at (hdone : p ≠ some site → ∀ r w', effect w = (r, w') → match r with
      | .ok a => ret a w'
      | .error e => thr e w') (hkilled : p = some site → gone (part w)) :
    Wp (operate site broken effect part) (killedAt p) ret thr gone w := by
  by_cases hp : p = some site
  · have hfate : killedAt p site = .killed := if_pos hp
    refine wp_operate (fun h => ?_) (fun h => ?_) fun _ => hkilled hp
    · rw [hfate] at h
      cases h
    · rw [hfate] at h
      rcases h with h | h <;> cases h
  · have hfate : killedAt p site = .done := if_neg hp
    refine wp_operate (fun _ r w' hr => ?_) (fun h => ?_) fun h => ?_
    · have hend := hdone hp r w' hr
      rcases r with e | a
      · exact hend
      · exact hend
    · rw [hfate] at h
      rcases h with h | h <;> cases h
    · rw [hfate] at h
      cases h

theorem wp_asked_at (hdone : p ≠ some site → match answer w with
      | .ok a => ret a w
      | .error e => thr e w) (hkilled : p = some site → gone w) :
    Wp (inquire site answer) (killedAt p) ret thr gone w :=
  wp_at (fun hp r w' hr => by
    cases hr
    exact hdone hp) hkilled

theorem wp_attempt_at {ret : Bool → World F → Prop} (hdone : p ≠ some site → ret (answer w).isOk w)
    (hkilled : p = some site → gone w) : Wp (attempt (inquire site answer)) (killedAt p) ret thr gone w := by
  refine wp_attempt.mpr (wp_asked_at (fun hp => ?_) hkilled)
  have h := hdone hp
  rcases ha : answer w with e | a <;> rw [ha] at h <;> exact h

theorem wp_databases_at {d : World F → Directory F} {ret : List String → World F → Prop}
    (hdone : ret ((((d w).keys.filter isDatabaseFilename).mergeSort).take (maxDatabases + 1)) w)
    (hkilled : p = some site → gone w) : Wp (databases site d) (killedAt p) ret thr gone w :=
  wp_tryCatch.mpr (wp_asked_at (fun _ => hdone) hkilled)

end

/-! ### Copies and promotions -/

section

variable {o : Outside F} {p : Option Site} {w w' : World F}

/-- The files of a list are copied to the staging directory, as far as they are there. -/
structure Staged (o : Outside F) (w w' : World F) (tried : List String) : Prop where
  home : w'.home = w.home
  bootstrap : w'.bootstrap = w.bootstrap
  names : w'.locals.stagedNames = tried.filter (· ∈ o.legacy)
  stage : ∃ stage, w'.stage = some stage ∧ ∀ n, stage.lookup n = if n ∈ tried then o.legacy.lookup n else none

variable {tried : List String} {n : String} {stage : Directory F}

theorem Staged.skip (h : Staged o w w' tried) (hn : n ∉ o.legacy) : Staged o w w' (tried ++ [n]) where
  home := h.home
  bootstrap := h.bootstrap
  names := by
    rw [h.names, List.filter_append, List.filter_singleton, decide_eq_false hn]
    exact (List.append_nil _).symm
  stage := by
    obtain ⟨stage, hstage, hlookup⟩ := h.stage
    refine ⟨stage, hstage, fun m => ?_⟩
    rw [hlookup]
    by_cases hm : m = n
    · have hnone : o.legacy.lookup m = none := AList.lookup_eq_none.mpr (hm ▸ hn)
      rw [hnone, ite_self, ite_self]
    · simp [hm]

theorem Staged.copy {file : F} (h : Staged o w w' tried)
    (hstage : w'.stage = some stage) (hfile : o.legacy.lookup n = some file) : Staged o w { w' with
        stage := some (stage.insert n file)
        locals := { w'.locals with stagedNames := w'.locals.stagedNames ++ [n] } } (tried ++ [n]) where
  home := h.home
  bootstrap := h.bootstrap
  names := by
    have hn : n ∈ o.legacy := AList.lookup_isSome.mp (by rw [hfile]; rfl)
    show w'.locals.stagedNames ++ [n] = _
    rw [h.names, List.filter_append, List.filter_singleton, decide_eq_true hn]
    rfl
  stage := by
    obtain ⟨stage', hstage', hlookup⟩ := h.stage
    obtain rfl := Option.some.inj (hstage.symm.trans hstage')
    refine ⟨_, rfl, fun m => ?_⟩
    by_cases hm : m = n
    · rw [hm, AList.lookup_insert, if_pos (List.mem_append_right _ (List.mem_singleton_self n)), hfile]
    · rw [AList.lookup_insert_ne hm, hlookup]
      simp [hm]

theorem wp_stage {files : List String} (hfiles : files.Nodup) (hw : Staged o w w' []) :
    Wp (each (fun n => do
        let readable ← attempt (inquire (.usable n) fun _ => if n ∈ o.legacy then .ok () else .error broken)
        if readable then
          copyFile o (.bootstrapCopy n) (fun _ => some o.legacy) .stage n
          amend fun w => { w with locals := { w.locals with stagedNames := w.locals.stagedNames ++ [n] } }) files)
      (killedAt p) (fun _ w'' => Staged o w w'' files) (fun _ _ => False)
      (fun w'' => (w''.home = w.home ∧ w''.bootstrap = w.bootstrap) ∧
        ∃ n, p = some (.usable n) ∨ p = some (.bootstrapCopy n)) w' := by
  refine wp_each (I := fun rest w'' => ∃ done, files = done ++ rest ∧ Staged o w w'' done) ⟨[], rfl, hw⟩ ?_ ?_
  · rintro w'' ⟨done, hall, hdone⟩
    rw [List.append_nil] at hall
    rw [hall]
    exact hdone
  · rintro n rest w'' - ⟨done, hall, hdone⟩
    have hnext : files = (done ++ [n]) ++ rest := by rw [hall, List.append_assoc]; rfl
    have hnew : n ∉ done := by
      rw [hall] at hfiles
      exact fun hn => (List.disjoint_of_nodup_append hfiles) hn List.mem_cons_self
    refine wp_bind.mpr (wp_attempt_at (fun _ => ?_) fun hp => ⟨⟨hdone.home, hdone.bootstrap⟩, n, .inl hp⟩)
    by_cases hn : n ∈ o.legacy
    · rw [if_pos hn]
      obtain ⟨stage, hstage, hlookup⟩ := hdone.stage
      obtain ⟨file, hfile⟩ := Option.isSome_iff_exists.mp (AList.lookup_isSome.mpr hn)
      refine wp_bind.mpr (wp_at (fun _ r v hr => ?_) fun hp => ?_)
      · have habsent : n ∉ stage := by
          rw [← AList.lookup_eq_none, hlookup, if_neg hnew]
        have hcopied : copied (some o.legacy) .stage n w'' =
            (.ok (), { w'' with stage := some (stage.insert n file) }) := by
          unfold copied
          rw [Option.bind_some, hfile, World.dir, hstage]
          exact if_neg habsent
        obtain ⟨rfl, rfl⟩ := Prod.mk.inj (hr.symm.trans hcopied)
        exact ⟨done ++ [n], hnext, hdone.copy hstage hfile⟩
      · obtain ⟨stage', hshattered⟩ := shattered_stage (w := w'') (n := n) (o.shard (.bootstrapCopy n))
        rw [hshattered]
        exact ⟨⟨hdone.home, hdone.bootstrap⟩, n, .inr hp⟩
    · rw [if_neg hn]
      exact ⟨done ++ [n], hnext, hdone.skip hn⟩

/-- Some of the staged files are in `sqliteHome`. -/
structure Promoted (o : Outside F) (p : Option Site) (w w' : World F) (done rest : List String) : Prop where
  bootstrap : w'.bootstrap = w.bootstrap
  unmoved : done = [] → w'.home = w.home
  home : ∀ n ∈ done, w'.home.lookup n = o.legacy.lookup n
  passed : ∀ n ∈ done, p ≠ some (.promote n)
  stage : ∃ stage, w'.stage = some stage ∧ ∀ n ∈ rest, stage.lookup n = o.legacy.lookup n

theorem Promoted.next {done rest : List String} {file : F}
    (h : Promoted o p w w' done (n :: rest)) (hstage : w'.stage = some stage) (hfile : o.legacy.lookup n = some file)
    (hn : n ∉ done) (hrest : n ∉ rest) (hpassed : p ≠ some (.promote n)) : Promoted o p w { w' with
        home := w'.home.insert n file
        stage := some (stage.erase n)
        locals := { w'.locals with promoted := w'.locals.promoted ++ [n] } } (done ++ [n]) rest where
  bootstrap := h.bootstrap
  unmoved := fun hempty => absurd hempty (by simp)
  home := fun m hm => by
    rcases List.mem_append.mp hm with hm | hm
    · have hne : m ≠ n := fun heq => hn (heq ▸ hm)
      rw [AList.lookup_insert_ne hne]
      exact h.home m hm
    · rw [List.mem_singleton.mp hm, AList.lookup_insert, hfile]
  passed := fun m hm => by
    rcases List.mem_append.mp hm with hm | hm
    · exact h.passed m hm
    · rw [List.mem_singleton.mp hm]
      exact hpassed
  stage := by
    obtain ⟨stage', hstage', hlookup⟩ := h.stage
    obtain rfl := Option.some.inj (hstage.symm.trans hstage')
    refine ⟨_, rfl, fun m hm => ?_⟩
    have hne : m ≠ n := fun heq => hrest (heq ▸ hm)
    rw [AList.lookup_erase_ne hne]
    exact hlookup m (List.mem_cons_of_mem _ hm)

theorem wp_promotions {files : List String} (hfiles : files.Nodup) (hlegacy : ∀ n ∈ files, n ∈ o.legacy)
    (hw : Promoted o p w w' [] files) :
    Wp (each (fun n => do
        rename (.promote n) .stage .home n
        amend fun w => { w with locals := { w.locals with promoted := w.locals.promoted ++ [n] } }) files)
      (killedAt p) (fun _ w'' => Promoted o p w w'' files []) (fun _ _ => False)
      (fun w'' => ∃ done n rest, files = done ++ n :: rest ∧ p = some (.promote n) ∧ Promoted o p w w'' done (n :: rest))
      w' := by
  refine wp_each (I := fun rest w'' => ∃ done, files = done ++ rest ∧ Promoted o p w w'' done rest) ⟨[], rfl, hw⟩ ?_ ?_
  · rintro w'' ⟨done, hall, hdone⟩
    rw [List.append_nil] at hall
    rw [hall]
    exact hdone
  · rintro n rest w'' - ⟨done, hall, hdone⟩
    have hmem : n ∈ files := hall ▸ List.mem_append_right _ List.mem_cons_self
    have hnodup : (done ++ n :: rest).Nodup := hall ▸ hfiles
    have hnew : n ∉ done := fun hn => (List.disjoint_of_nodup_append hnodup) hn List.mem_cons_self
    have hrest : n ∉ rest := (List.nodup_cons.mp (List.nodup_append.mp hnodup).2.1).1
    refine wp_bind.mpr (wp_at (fun hp r v hr => ?_) fun hp => ⟨done, n, rest, hall, hp, hdone⟩)
    obtain ⟨stage, hstage, hlookup⟩ := hdone.stage
    obtain ⟨file, hfile⟩ := Option.isSome_iff_exists.mp (AList.lookup_isSome.mpr (hlegacy n hmem))
    have hrenamed : renamed .stage .home n w'' =
        (.ok (), { w'' with home := w''.home.insert n file, stage := some (stage.erase n) }) := by
      have hsource : w''.dir .stage = some stage := hstage
      have htarget : w''.dir .home = some w''.home := rfl
      unfold renamed
      rw [hsource, htarget]
      dsimp only
      rw [hlookup n List.mem_cons_self, hfile]
      rfl
    obtain ⟨rfl, rfl⟩ := Prod.mk.inj (hr.symm.trans hrenamed)
    exact ⟨done ++ [n], by rw [hall, List.append_assoc]; rfl, hdone.next hstage hfile hnew hrest hp⟩

def Fresh (w : World F) : Prop := w.home = ∅ ∧ w.bootstrap ≠ some true

/-- There is a database, and no completion marker. -/
def Stuck (w : World F) : Prop := (∃ n ∈ w.home, isDatabaseFilename n = true) ∧ w.bootstrap ≠ some true

/-- What a killed run leaves behind of an empty `sqliteHome`. -/
def Left (o : Outside F) (p : Option Site) (w : World F) : Prop :=
  (¬ Midway o p ∧ (Fresh w ∨ BroughtOver o w)) ∨ (Midway o p ∧ Stuck w)

theorem not_midway_of {site : Site} (hp : p = some site) (hpromote : ∀ n, site ≠ .promote n)
    (hstaged : site ≠ .stagedMarker) (hmarker : site ≠ .promoteMarker) : ¬ Midway o p := by
  rintro ⟨-, -, ⟨n, -, h⟩ | h | h⟩
  · exact hpromote n (Option.some.inj (hp.symm.trans h))
  · exact hstaged (Option.some.inj (hp.symm.trans h))
  · exact hmarker (Option.some.inj (hp.symm.trans h))

theorem Promoted.stuck (h : Promoted o p w w' (legacyFiles o) []) (hfresh : w.bootstrap ≠ some true)
    (hsome : legacyDatabases o ≠ []) : Stuck w' := by
  obtain ⟨first, rest, hfiles, hname⟩ := legacyFiles_head hsome
  have hmem : first ∈ legacyFiles o := hfiles ▸ List.mem_cons_self
  refine ⟨⟨first, ?_, hname⟩, h.bootstrap ▸ hfresh⟩
  rw [← AList.lookup_isSome, h.home first hmem, AList.lookup_isSome]
  exact of_decide_eq_true (List.mem_filter.mp hmem).2

theorem Promoted.broughtOver (h : Promoted o p w w' (legacyFiles o) [])
    (hfew : (legacyDatabases o).length ≤ maxDatabases) : BroughtOver o { w' with bootstrap := some true } := by
  refine ⟨rfl, fun database hdatabase hname n hn hlegacy => h.home n (List.mem_filter.mpr ⟨?_, decide_eq_true hlegacy⟩)⟩
  exact List.mem_flatMap.mpr ⟨database, legacyDatabases_complete hfew hdatabase hname, hn⟩

theorem Fresh.unstarted (h : Fresh w) : Unstarted w :=
  ⟨fun n hn => absurd hn (by rw [h.1]; exact AList.notMem_empty n), h.2⟩

/-- A promotion brings every legacy file over, or is killed midway. -/
theorem wp_promoteLegacy (hfresh : Fresh w) (hstage : w.stage = some ∅) (hnames : w.locals.stagedNames = [])
    (hsome : legacyDatabases o ≠ []) (hfew : (legacyDatabases o).length ≤ maxDatabases) :
    Wp (promoteLegacy o (legacyDatabases o)) (killedAt p) (fun _ w' => ¬ Midway o p ∧ BroughtOver o w')
      (fun _ _ => False) (Left o p) w := by
  have hkept : ∀ {w' : World F}, w'.home = w.home → w'.bootstrap = w.bootstrap → Fresh w' := fun hhome hbootstrap =>
    ⟨hhome.trans hfresh.1, hbootstrap ▸ hfresh.2⟩
  have hstart : Staged o w w [] := ⟨rfl, rfl, hnames, ∅, hstage, fun n => AList.lookup_empty n⟩
  refine wp_bind.mpr ((wp_stage nodup_legacy hstart).mono (fun _ w₁ hstaged => ?_) (fun _ _ h => h) fun w₁ hgone => ?_)
  · obtain ⟨stage, hstaging, hlookup⟩ := hstaged.stage
    have hpromoted : Promoted o p w w₁ [] (legacyFiles o) := by
      refine ⟨hstaged.bootstrap, fun _ => hstaged.home, fun n hn => absurd hn List.not_mem_nil,
        fun n hn => absurd hn List.not_mem_nil, stage, hstaging, fun n hn => ?_⟩
      rw [hlookup, if_pos (List.mem_of_mem_filter hn)]
    have hfiles : w₁.locals.stagedNames = legacyFiles o := hstaged.names
    refine wp_bind.mpr (wp_look.mpr (wp_bind.mpr ?_))
    rw [hfiles]
    refine (wp_promotions nodup_legacyFiles (fun n hn => of_decide_eq_true (List.mem_filter.mp hn).2) hpromoted).mono
      (fun _ w₂ hall => ?_) (fun _ _ h => h) ?_
    · have hstuck := hall.stuck hfresh.2 hsome
      refine wp_bind.mpr (wp_asked_at (fun hmarker => ?_) fun hmarker => .inr ⟨⟨hsome, hfew, .inr (.inl hmarker)⟩, hstuck⟩)
      refine wp_at (fun hpromote r v hr => ?_) fun hpromote => .inr ⟨⟨hsome, hfew, .inr (.inr hpromote)⟩, hstuck⟩
      cases hr
      refine ⟨?_, hall.broughtOver hfew⟩
      rintro ⟨-, -, ⟨n, hn, h⟩ | h | h⟩
      · exact hall.passed n (List.mem_of_mem_tail hn) h
      · exact hmarker h
      · exact hpromote h
    · rintro w₂ ⟨done, n, rest, hall, hpoint, hdone⟩
      obtain ⟨first, others, hfirst, hname⟩ := legacyFiles_head hsome
      rcases done with _ | ⟨a, done⟩
      · refine .inl ⟨?_, .inl (hkept (hdone.unmoved rfl) hdone.bootstrap)⟩
        have hnodup : (n :: rest).Nodup := by
          have hfiles := nodup_legacyFiles (o := o)
          rw [hall] at hfiles
          exact hfiles
        have hnew := (List.nodup_cons.mp hnodup).1
        rintro ⟨-, -, ⟨m, hm, h⟩ | h | h⟩
        · rw [hall] at hm
          obtain rfl : n = m := Site.promote.inj (Option.some.inj (hpoint.symm.trans h))
          exact hnew hm
        · exact absurd (hpoint.symm.trans h) (by simp)
        · exact absurd (hpoint.symm.trans h) (by simp)
      · obtain ⟨rfl, hothers⟩ := List.cons.inj (hfirst.symm.trans hall)
        refine .inr ⟨⟨hsome, hfew, .inl ⟨n, ?_, hpoint⟩⟩, ⟨first, ?_, hname⟩, hdone.bootstrap ▸ hfresh.2⟩
        · rw [hfirst, List.tail_cons, hothers]
          exact List.mem_append_right _ List.mem_cons_self
        · have hmem : first ∈ legacyFiles o := hfirst ▸ List.mem_cons_self
          rw [← AList.lookup_isSome, hdone.home first List.mem_cons_self, AList.lookup_isSome]
          exact of_decide_eq_true (List.mem_filter.mp hmem).2
  · -- no file has been promoted
    obtain ⟨⟨hhome, hbootstrap⟩, n, hpoint | hpoint⟩ := hgone
    · exact .inl ⟨not_midway_of hpoint (fun _ => by simp) (by simp) (by simp), .inl (hkept hhome hbootstrap)⟩
    · exact .inl ⟨not_midway_of hpoint (fun _ => by simp) (by simp) (by simp), .inl (hkept hhome hbootstrap)⟩

theorem wp_removeStage {site : Site} {ret : Unit → World F → Prop} {thr : Thrown → World F → Prop} {gone : World F → Prop}
    (hret : ∀ stage, ret () { w with stage }) (hgone : ∀ stage, gone { w with stage }) :
    Wp (removeStage o site) (killedAt p) ret thr gone w :=
  wp_at (fun _ r w' hr => by
    cases hr
    exact hret none) fun _ => hgone _

theorem listed_of_empty (h : ∀ n ∈ w.home, isDatabaseFilename n = false) :
    ((w.home.keys.filter isDatabaseFilename).mergeSort).take (maxDatabases + 1) = [] :=
  List.isEmpty_iff.mp (databases_isEmpty.mpr h)

/-- **A run that finds an empty `sqliteHome`.**  Where it returns, everything is brought over; where it is killed midway,
there is a database and no marker. -/
theorem wp_fresh (hfresh : Fresh w) (hnames : w.locals.stagedNames = []) :
    Wp (bootstrapLegacySqlite o) (killedAt p) (fun _ w' => ¬ Midway o p ∧ BroughtOver o w')
      (fun _ w' => ¬ Midway o p ∧ Fresh w') (Left o p) w := by
  have hleft : ∀ {site : Site}, p = some site → (∀ n, site ≠ .promote n) → site ≠ .stagedMarker →
      site ≠ .promoteMarker → Left o p w := fun hp hpromote hstaged hmarker =>
    .inl ⟨not_midway_of hp hpromote hstaged hmarker, .inl hfresh⟩
  refine wp_bind.mpr (wp_asked_at (fun _ => ?_) fun hp => hleft hp (fun _ => by simp) (by simp) (by simp))
  refine wp_bind.mpr (wp_databases_at ?_ fun hp => hleft hp (fun _ => by simp) (by simp) (by simp))
  rw [listed_of_empty hfresh.unstarted.1]
  refine wp_bind.mpr (wp_attempt_at (fun _ => ?_) fun hp => hleft hp (fun _ => by simp) (by simp) (by simp))
  rw [if_neg hfresh.2]
  refine wp_bind.mpr (wp_databases_at ?_ fun hp => hleft hp (fun _ => by simp) (by simp) (by simp))
  refine wp_ite (fun hmany => ⟨fun hmidway => absurd hmidway.2.1 (Nat.not_le_of_lt hmany), hfresh⟩) fun hmany => ?_
  have hfew : (legacyDatabases o).length ≤ maxDatabases := Nat.le_of_not_lt hmany
  refine wp_ite (fun hempty => ?_) fun hsome => ?_
  · have hnone : legacyDatabases o = [] := List.isEmpty_iff.mp hempty
    have hmidway : ¬ Midway o p := fun h => h.1 hnone
    refine wp_bind.mpr (wp_at (fun _ r w' hr => ?_) fun _ => .inl ⟨hmidway, .inl ⟨hfresh.1, ?_⟩⟩)
    · by_cases hmarker : w.bootstrap.isSome = true
      · rw [if_pos hmarker] at hr
        cases hr
        exact ⟨hmidway, hfresh⟩
      · rw [if_neg hmarker] at hr
        cases hr
        refine ⟨hmidway, rfl, fun database hdatabase hname => ?_⟩
        have hlisted := legacyDatabases_complete hfew hdatabase hname
        rw [hnone] at hlisted
        cases hlisted
    · show w.bootstrap.or (some false) ≠ some true
      rcases hmarker : w.bootstrap with _ | complete
      · exact fun h => by cases h
      · have hincomplete := hfresh.2
        rw [hmarker] at hincomplete
        exact hincomplete
  · have hdatabases : legacyDatabases o ≠ [] := fun h => hsome (List.isEmpty_iff.mpr h)
    refine wp_bind.mpr (wp_at (fun _ r w' hr => ?_) fun hp => hleft hp (fun _ => by simp) (by simp) (by simp))
    cases hr
    refine wp_always.mpr (wp_tryCatch.mpr ?_)
    refine (wp_promoteLegacy (w := { w with stage := some ∅ }) hfresh rfl hnames hdatabases hfew).mono ?_ ?_ ?_
    · rintro _ w' ⟨hmidway, hbrought⟩
      exact wp_removeStage (fun _ => ⟨hmidway, hbrought⟩) fun _ => .inl ⟨hmidway, .inr hbrought⟩
    · exact fun _ _ h => h.elim
    · exact fun _ h => h

/-- **A run that finds a database or the completion marker** changes nothing. -/
theorem wp_settled (hsettled : ¬ Unstarted w) :
    Wp (bootstrapLegacySqlite o) (killedAt p) (fun _ w' => w' = w) (fun _ _ => False) (fun w' => w' = w) w := by
  refine wp_bind.mpr (wp_asked_at (fun _ => ?_) fun _ => rfl)
  refine wp_bind.mpr (wp_databases_at ?_ fun _ => rfl)
  by_cases hexisting : (((w.home.keys.filter isDatabaseFilename).mergeSort).take (maxDatabases + 1)).isEmpty = true
  · rw [hexisting]
    have hcomplete : w.bootstrap = some true := by
      by_contra hmarker
      exact hsettled ⟨databases_isEmpty.mp hexisting, hmarker⟩
    refine wp_bind.mpr (wp_attempt_at (fun _ => ?_) fun _ => rfl)
    rw [if_pos hcomplete]
    exact (rfl : w = w)
  · rw [Bool.not_eq_true] at hexisting
    rw [hexisting]
    exact (rfl : w = w)

end

/-! ### Runs one after another -/

section

variable {o : Outside F} {a : Attempt F} {w : World F}

theorem Fresh.after_run (h : Fresh w) : Left o a.killed (a.run o w).2 := by
  have hrun : Wp (bootstrapLegacySqlite (a.outside o)) (killedAt a.killed) (fun _ w' => Left o a.killed w')
      (fun _ w' => Left o a.killed w') (Left o a.killed) w.restarted :=
    (wp_fresh (o := a.outside o) (w := w.restarted) h rfl).mono
      (fun _ _ hreturned => .inl ⟨hreturned.1, .inr hreturned.2⟩)
      (fun _ _ hthrown => .inl ⟨hthrown.1, .inl hthrown.2⟩) fun _ hgone => hgone
  exact hrun.world

theorem Fresh.returned (h : Fresh w) (hreturned : (a.run o w).1 = .returned ()) : BroughtOver o (a.run o w).2 :=
  ((wp_fresh (o := a.outside o) (w := w.restarted) h rfl).of_returned hreturned).2

theorem run_settled (h : ¬ Unstarted w) : (a.run o w).2 = w.restarted :=
  (wp_settled (o := a.outside o) (p := a.killed) (w := w.restarted) h |>.mono (fun _ _ hsame => hsame) (fun _ _ h => h.elim)
    fun _ hsame => hsame).world

theorem BroughtOver.settled (h : BroughtOver o w) : ¬ Unstarted w := fun hunstarted => hunstarted.2 h.1

theorem Stuck.settled (h : Stuck w) : ¬ Unstarted w := by
  rintro ⟨hnone, -⟩
  obtain ⟨⟨n, hn, hname⟩, -⟩ := h
  rw [hnone n hn] at hname
  cases hname

theorem afterAttempts_concat (attempts : List (Attempt F)) :
    afterAttempts o w (attempts ++ [a]) = (a.run o (afterAttempts o w attempts)).2 := by
  rw [afterAttempts, List.foldl_append]
  rfl

theorem noneMidway_concat {attempts : List (Attempt F)} : NoneMidway o w (attempts ++ [a]) ↔
    NoneMidway o w attempts ∧ (Unstarted (afterAttempts o w attempts) → ¬ Midway o a.killed) := by
  constructor
  · intro h
    refine ⟨fun before b after hall => h before b (after ++ [a]) (by rw [hall, List.append_assoc]; rfl), h attempts a [] rfl⟩
  · rintro ⟨hbefore, hlast⟩ before b after hall
    rcases List.eq_nil_or_concat after with rfl | ⟨others, c, rfl⟩
    · obtain ⟨rfl, hsame⟩ := List.append_inj' hall rfl
      obtain rfl := (List.cons.inj hsame).1
      exact hlast
    · rw [List.concat_eq_append, ← List.cons_append, ← List.append_assoc] at hall
      exact hbefore before b others (List.append_inj' hall rfl).1

/-- What some runs leave behind: nothing or everything, where none of them was killed midway, and otherwise a database
without the marker. -/
theorem after_attempts (hfresh : Fresh w) (attempts : List (Attempt F)) :
    (NoneMidway o w attempts → Fresh (afterAttempts o w attempts) ∨ BroughtOver o (afterAttempts o w attempts)) ∧
      (¬ NoneMidway o w attempts → Stuck (afterAttempts o w attempts)) := by
  induction attempts using List.reverseRecOn with
  | nil =>
    refine ⟨fun _ => .inl hfresh, fun hmidway => absurd (fun before b after hall => ?_) hmidway⟩
    exact absurd hall (by simp)
  | append_singleton attempts a ih =>
    rw [noneMidway_concat, afterAttempts_concat]
    by_cases hbefore : NoneMidway o w attempts
    · rcases ih.1 hbefore with hstill | hbrought
      · rcases hstill.after_run (o := o) (a := a) with ⟨hmidway, hleft⟩ | ⟨hmidway, hstuck⟩
        · exact ⟨fun _ => hleft, fun hnot => absurd ⟨hbefore, fun _ => hmidway⟩ hnot⟩
        · exact ⟨fun h => absurd hmidway (h.2 hstill.unstarted), fun _ => hstuck⟩
      · rw [run_settled hbrought.settled]
        exact ⟨fun _ => .inr hbrought, fun hnot => absurd ⟨hbefore, fun h => absurd h hbrought.settled⟩ hnot⟩
    · have hstuck := ih.2 hbefore
      rw [run_settled hstuck.settled]
      exact ⟨fun h => absurd h.1 hbefore, fun _ => hstuck⟩

/-- A run that returns has everything brought over exactly where no run before it was killed midway. -/
theorem bootstrap_complete_iff (o : Outside F) (w₀ : World F) (attempts : List (Attempt F)) (last : Attempt F)
    (hhome : w₀.home = ∅) (hmarker : w₀.bootstrap = none)
    (hreturned : (last.run o (afterAttempts o w₀ attempts)).1 = .returned ()) :
    BroughtOver o (last.run o (afterAttempts o w₀ attempts)).2 ↔ NoneMidway o w₀ attempts := by
  have hfresh : Fresh w₀ := ⟨hhome, by rw [hmarker]; exact fun h => by cases h⟩
  obtain ⟨hgood, hbad⟩ := after_attempts (o := o) hfresh attempts
  constructor
  · intro hbrought
    by_contra hmidway
    have hstuck := hbad hmidway
    rw [run_settled hstuck.settled] at hbrought
    exact hstuck.2 hbrought.1
  · intro hnone
    rcases hgood hnone with hstill | hbrought
    · exact hstill.returned hreturned
    · rw [run_settled hbrought.settled]
      exact hbrought

end

end

namespace BootstrapSample

/-- A database with its write-ahead log. -/
def outside : Outside ℕ :=
  { Sample.outside (fun _ => true) (fun _ => []) with
    legacy := ((∅ : Directory ℕ).insert "one.sqlite-wal" 2).insert "one.sqlite" 1 }

/-- An empty `sqliteHome`. -/
def empty : World ℕ := { Sample.world with home := ∅, bootstrap := none }

def attempt (killed : Option Site) : Attempt ℕ := ⟨killed, fun _ => [], fun _ => none⟩

end BootstrapSample

open BootstrapSample in
/-- A run that is killed while it copies, one that is killed before its first promotion, and one that gets through. -/
theorem bootstrap_complete_retried : BroughtOver outside ((attempt none).run outside
      (afterAttempts outside empty [attempt (some (.bootstrapCopy "one.sqlite-wal")),
      attempt (some (.promote "one.sqlite"))])).2 := by
  refine (bootstrap_complete_iff outside empty _ (attempt none) rfl rfl (by decide +kernel)).mpr ?_
  have hpoints : ∀ a ∈ [attempt (some (.bootstrapCopy "one.sqlite-wal")), attempt (some (.promote "one.sqlite"))],
      ¬ Midway outside a.killed := by
    unfold Midway
    decide +kernel
  intro before a after hall _
  exact hpoints a (hall ▸ List.mem_append_right _ List.mem_cons_self)

open BootstrapSample in
/-- A run that is killed before its second promotion: the next one finds the database alone, and returns. -/
theorem bootstrap_killed_midway :
    ¬ ∀ (o : Outside ℕ) (w₀ : World ℕ) (attempts : List (Attempt ℕ)) (last : Attempt ℕ), w₀.home = ∅ →
      w₀.bootstrap = none → (last.run o (afterAttempts o w₀ attempts)).1 = .returned () →
        BroughtOver o (last.run o (afterAttempts o w₀ attempts)).2 := by
  intro h
  obtain ⟨hmarker, -⟩ := h outside empty [attempt (some (.promote "one.sqlite-wal"))] (attempt none) rfl rfl
    (by decide +kernel)
  have hmissing : ((attempt none).run outside
      (afterAttempts outside empty [attempt (some (.promote "one.sqlite-wal"))])).2.bootstrap = none := by decide +kernel
  rw [hmissing] at hmarker
  cases hmarker

end ADT.Sqlite
