import ADT.Catalogue.Discipline

/-!
# Catalogue.Growth — what every change of a world keeps

Whatever is visible in the cache was the head of the branch after its generation was written, and the generation that is
visible was written after the latest invalidation that has returned true had begun.
-/

namespace ADT.Catalogue

open Interleave Artifacts

/-! ### What is true of a world -/

namespace World

/-- The epoch when a generation was written; where there is none, the first. -/
def bornAt (w : World) : Option ℕ → Option ℕ
  | none => some 0
  | some g => w.born g

/-- The revision was the head at the epoch or after it. -/
def Covers (w : World) (revision : String) (epoch : ℕ) : Prop := ∃ m ∈ w.history, m.head = revision ∧ epoch ≤ m.epoch

/-- The revision was the head at the time or after it. -/
def HeadSince (w : World) (revision : String) (time : ℕ) : Prop := ∃ m ∈ w.history, m.head = revision ∧ time ≤ m.time

def After (w : World) (revision : String) (g : Option ℕ) : Prop := ∃ e, w.bornAt g = some e ∧ w.Covers revision e

/-- The floor when the load of a flight began. -/
def began (w : World) (flight : ℕ) : Option ℕ := w.promises[flight]?.bind (·.began)

def resultOf (w : World) (flight : ℕ) : Option Result := w.promises[flight]?.bind (·.result)

/-- The generation that is visible was written at the epoch or after it. -/
def Renewed (w : World) (epoch : ℕ) : Prop := ∃ e, w.bornAt (w.cache .generation) = some e ∧ epoch ≤ e

def Under (w : World) (ticket : ℕ) (write : Write) : Prop := (ticket, write) ∈ w.flying

/-- A pointer to what was the head. -/
def Points (w : World) (pointer : Pointer) : Prop :=
  w.After pointer.revision pointer.generation ∧ w.HeadSince pointer.revision pointer.refreshedAt

end World

/-- What a fact says; `strict` stands for the care that the calls take. -/
def Fact.Holds (strict : Prop) (w : World) (t : ℕ) : Fact → Prop
  | .passed time => time ≤ w.moment.time
  | .launched flight => flight < w.promises.length
  | .taken flight => (w.began flight).isSome = true
  | .read g => (w.bornAt g).isSome = true
  | .unread => True
  | .covers g flight => ∃ e f, w.bornAt g = some e ∧ w.began flight = some f ∧ f ≤ e
  | .exempt flight => strict → w.began flight = some 0
  | .after revision g => w.After revision g
  | .since revision time => w.HeadSince revision time
  | .within revision flight => ∃ f, w.began flight = some f ∧ w.Covers revision f
  | .mine flight => ∃ d, w.due t = some d ∧ (strict → ∀ f, w.began flight = some f → d ≤ f)
  | .got flight catalogue => w.resultOf flight = some (.ok catalogue)
  | .opened => (w.opened t).isSome = true
  | .cutting ticket => ∃ o, w.opened t = some o ∧ ((∃ g, w.Under ticket (.put .generation g)) ∨ w.Renewed o)
  | .cut => ∃ o, w.opened t = some o ∧ w.Renewed o

/-- **Invariant.** -/
structure World.Consistent (S : Setting) (strict : Prop) (w : World) : Prop where
  sound : ∀ key value, w.cache key = some value → Sound S key value
  points : ∀ pointer, w.cache .current = some pointer → w.Points pointer
  putSound : ∀ ticket key value, w.Under ticket (.put key value) → Sound S key value
  putPoints : ∀ ticket pointer, w.Under ticket (.put .current pointer) → w.Points pointer
  deletes : ∀ ticket key, w.Under ticket (.delete key) → key = .current
  nodup : (w.flying.map (·.1)).Nodup
  below : ∀ x ∈ w.flying, x.1 < w.tickets
  unborn : ∀ ticket g, w.Under ticket (.put .generation g) → w.born g = none
  drawn : ∀ ticket g, w.Under ticket (.put .generation g) → g < w.drawn
  once : ∀ ticket ticket' g, w.Under ticket (.put .generation g) → w.Under ticket' (.put .generation g) → ticket = ticket'
  fresh : ∀ g, w.drawn ≤ g → w.born g = none
  born : ∀ g e, w.born g = some e → e ≤ w.moment.epoch
  renewed : w.Renewed w.floor
  floor : w.floor ≤ w.moment.epoch
  opened : ∀ t o, w.opened t = some o → o ≤ w.moment.epoch
  due : ∀ t d, w.due t = some d → d ≤ w.floor
  began : ∀ flight f, w.began flight = some f → f ≤ w.floor
  settled : strict → ∀ flight catalogue, w.resultOf flight = some (.ok catalogue) →
    ∃ f, w.began flight = some f ∧ w.Covers catalogue.revision f

/-! ### Worlds grow -/

/-- What an answer leaves as it was. -/
structure World.Grows (w w' : World) : Prop where
  time : w.moment.time ≤ w'.moment.time
  epoch : w.moment.epoch ≤ w'.moment.epoch
  history : ∀ m ∈ w.history, m ∈ w'.history
  born : ∀ g e, w.born g = some e → w'.born g = some e
  promises : w.promises.length ≤ w'.promises.length
  began : ∀ flight f, w.began flight = some f → w'.began flight = some f
  begins : ∀ flight f, w'.began flight = some f → w.began flight = some f ∨ f = w.floor
  results : ∀ flight r, w.resultOf flight = some r → w'.resultOf flight = some r
  due : ∀ t d, w.due t = some d → w'.due t = some d
  opened : ∀ t o, w.opened t = some o → w'.opened t = some o
  renewed : ∀ o, o ≤ w.moment.epoch → w.Renewed o → w'.Renewed o
  lands : ∀ ticket g, w.Under ticket (.put .generation g) → w'.Under ticket (.put .generation g) ∨ w'.Renewed w.moment.epoch

section Grows

variable {S : Setting} {strict : Prop} {w w' : World} {revision : String} {epoch time t : ℕ} {g : Option ℕ}

theorem World.Renewed.mono {o : ℕ} (h : w.Renewed epoch) (ho : o ≤ epoch) : w.Renewed o := by
  obtain ⟨e, he, hle⟩ := h
  exact ⟨e, he, ho.trans hle⟩

theorem World.Grows.bornAt (h : w.Grows w') {e : ℕ} (he : w.bornAt g = some e) : w'.bornAt g = some e := by
  cases g with
  | none => exact he
  | some g => exact h.born g e he

theorem World.Grows.covers (h : w.Grows w') (hc : w.Covers revision epoch) : w'.Covers revision epoch := by
  obtain ⟨m, hm, hrest⟩ := hc
  exact ⟨m, h.history m hm, hrest⟩

theorem World.Grows.headSince (h : w.Grows w') (hs : w.HeadSince revision time) : w'.HeadSince revision time := by
  obtain ⟨m, hm, hrest⟩ := hs
  exact ⟨m, h.history m hm, hrest⟩

theorem World.Grows.after (h : w.Grows w') (ha : w.After revision g) : w'.After revision g := by
  obtain ⟨e, he, hc⟩ := ha
  exact ⟨e, h.bornAt he, h.covers hc⟩

theorem World.Grows.points (h : w.Grows w') {pointer : Pointer} (hp : w.Points pointer) : w'.Points pointer :=
  ⟨h.after hp.1, h.headSince hp.2⟩

/-- **Facts last** while the world grows. -/
theorem Fact.Holds.grows {f : Fact} (hf : f.Holds strict w t) (hw : w.Consistent S strict) (h : w.Grows w') :
    f.Holds strict w' t := by
  cases f with
  | passed time => exact le_trans hf h.time
  | launched flight => exact lt_of_lt_of_le hf h.promises
  | taken flight =>
    obtain ⟨f, hbegan⟩ := Option.isSome_iff_exists.mp hf
    exact Option.isSome_iff_exists.mpr ⟨f, h.began flight f hbegan⟩
  | read g =>
    obtain ⟨e, he⟩ := Option.isSome_iff_exists.mp hf
    exact Option.isSome_iff_exists.mpr ⟨e, h.bornAt he⟩
  | unread => trivial
  | covers g flight =>
    obtain ⟨e, f, he, hbegan, hle⟩ := hf
    exact ⟨e, f, h.bornAt he, h.began flight f hbegan, hle⟩
  | exempt flight => exact fun hs => h.began flight 0 (hf hs)
  | after revision g => exact h.after hf
  | since revision time => exact h.headSince hf
  | within revision flight =>
    obtain ⟨f, hbegan, hc⟩ := hf
    exact ⟨f, h.began flight f hbegan, h.covers hc⟩
  | mine flight =>
    obtain ⟨d, hd, hle⟩ := hf
    refine ⟨d, h.due t d hd, fun hs f hbegan => ?_⟩
    rcases h.begins flight f hbegan with hbegan | rfl
    · exact hle hs f hbegan
    · exact hw.due t d hd
  | got flight catalogue => exact h.results flight _ hf
  | opened =>
    obtain ⟨o, ho⟩ := Option.isSome_iff_exists.mp hf
    exact Option.isSome_iff_exists.mpr ⟨o, h.opened t o ho⟩
  | cutting ticket =>
    obtain ⟨o, ho, hunder⟩ := hf
    have hle : o ≤ w.moment.epoch := hw.opened t o ho
    refine ⟨o, h.opened t o ho, ?_⟩
    rcases hunder with ⟨g, hg⟩ | hrenewed
    · rcases h.lands ticket g hg with hg | hlanded
      · exact .inl ⟨g, hg⟩
      · exact .inr (hlanded.mono hle)
    · exact .inr (h.renewed o hle hrenewed)
  | cut =>
    obtain ⟨o, ho, hrenewed⟩ := hf
    exact ⟨o, h.opened t o ho, h.renewed o (hw.opened t o ho) hrenewed⟩

theorem World.Grows.refl (w : World) : w.Grows w where
  time := le_rfl
  epoch := le_rfl
  history _ h := h
  born _ _ h := h
  promises := le_rfl
  began _ _ h := h
  begins _ _ h := .inl h
  results _ _ h := h
  due _ _ h := h
  opened _ _ h := h
  renewed _ _ h := h
  lands _ _ h := .inl h

end Grows

/-! ### Changes of a world -/

section Changes

variable {S : Setting} {strict : Prop} {w : World}

theorem consistent_initial (time : ℕ) (head : String) : (World.initial time head).Consistent S strict where
  sound _ _ h := by cases h
  points _ h := by cases h
  putSound _ _ _ h := by cases h
  putPoints _ _ h := by cases h
  deletes _ _ h := by cases h
  nodup := List.nodup_nil
  below _ h := by cases h
  unborn _ _ h := by cases h
  drawn _ _ h := by cases h
  once _ _ _ h := by cases h
  fresh _ _ := rfl
  born _ _ h := by cases h
  renewed := ⟨0, rfl, le_rfl⟩
  floor := le_rfl
  opened _ _ h := by cases h
  due _ _ h := by cases h
  began _ _ h := by cases h
  settled _ _ _ h := by cases h

theorem consistent_remember (h : w.Consistent S strict) (memory : ℕ → Memory) {drawn : ℕ} (hdrawn : w.drawn ≤ drawn) :
    ({ w with memory := memory, drawn := drawn } : World).Consistent S strict :=
  { h with
    drawn := fun ticket g hg => lt_of_lt_of_le (h.drawn ticket g hg) hdrawn
    fresh := fun g hg => h.fresh g (hdrawn.trans hg) }

theorem grows_remember (w : World) (memory : ℕ → Memory) (drawn : ℕ) :
    w.Grows { w with memory := memory, drawn := drawn } :=
  { World.Grows.refl w with }

theorem under_issue {write write' : Write} {ticket : ℕ} (h : (w.issue write).Under ticket write') :
    w.Under ticket write' ∨ (ticket = w.tickets ∧ write' = write) := by
  rcases List.mem_append.mp h with h | h
  · exact .inl h
  · obtain ⟨rfl, rfl⟩ := Prod.mk.inj (List.mem_singleton.mp h)
    exact .inr ⟨rfl, rfl⟩

theorem grows_issue (w : World) (write : Write) : w.Grows (w.issue write) :=
  { World.Grows.refl w with lands := fun _ _ h => .inl (List.mem_append_left _ h) }

/-- A write that is issued keeps the store consistent. -/
theorem consistent_issue (h : w.Consistent S strict) {write : Write}
    (hput : ∀ key value, write = .put key value → Sound S key value)
    (hpoints : ∀ pointer, write = .put .current pointer → w.Points pointer)
    (hdelete : ∀ key, write = .delete key → key = .current)
    (hgeneration : ∀ g, write = .put .generation g → g < w.drawn ∧ w.born g = none ∧
      ∀ ticket, ¬w.Under ticket (.put .generation g)) : (w.issue write).Consistent S strict :=
  { h with
    putSound := fun ticket key value hu => by
      rcases under_issue hu with hu | ⟨-, hw⟩
      · exact h.putSound ticket key value hu
      · exact hput key value hw.symm
    putPoints := fun ticket pointer hu => by
      rcases under_issue hu with hu | ⟨-, hw⟩
      · exact h.putPoints ticket pointer hu
      · exact hpoints pointer hw.symm
    deletes := fun ticket key hu => by
      rcases under_issue hu with hu | ⟨-, hw⟩
      · exact h.deletes ticket key hu
      · exact hdelete key hw.symm
    nodup := by
      show ((w.flying ++ [(w.tickets, write)]).map (·.1)).Nodup
      rw [List.map_append]
      refine h.nodup.append (List.nodup_singleton _) fun k hk hk' => ?_
      obtain ⟨x, hx, rfl⟩ := List.mem_map.mp hk
      have hsame : x.1 = w.tickets := List.mem_singleton.mp hk'
      have := h.below x hx
      omega
    below := fun x hx => by
      rcases List.mem_append.mp hx with hx | hx
      · exact (h.below x hx).trans (Nat.lt_succ_self _)
      · rw [List.mem_singleton.mp hx]
        exact Nat.lt_succ_self _
    unborn := fun ticket g hu => by
      rcases under_issue hu with hu | ⟨-, hw⟩
      · exact h.unborn ticket g hu
      · exact (hgeneration g hw.symm).2.1
    drawn := fun ticket g hu => by
      rcases under_issue hu with hu | ⟨-, hw⟩
      · exact h.drawn ticket g hu
      · exact (hgeneration g hw.symm).1
    once := fun ticket ticket' g hu hu' => by
      rcases under_issue hu with hu | ⟨rfl, hw⟩ <;> rcases under_issue hu' with hu' | ⟨rfl, hw'⟩
      · exact h.once ticket ticket' g hu hu'
      · exact absurd hu ((hgeneration g hw'.symm).2.2 ticket)
      · exact absurd hu' ((hgeneration g hw.symm).2.2 ticket')
      · rfl }

/-! ### A write takes effect -/

theorem under_unique (h : w.Consistent S strict) {ticket : ℕ} {write write' : Write} (hu : w.Under ticket write)
    (hu' : w.Under ticket write') : write = write' := by
  have hsame := List.inj_on_of_nodup_map h.nodup hu hu' rfl
  exact (Prod.mk.inj hsame).2

theorem under_filter {w' : World} {ticket ticket' : ℕ} {write : Write}
    (h : w'.flying = w.flying.filter (·.1 != ticket)) :
    w'.Under ticket' write ↔ w.Under ticket' write ∧ ticket' ≠ ticket := by
  rw [World.Under, h, List.mem_filter, bne_iff_ne]
  rfl

theorem land_cases (w : World) (ticket : ℕ) :
    w.land ticket = w ∨ ∃ write, w.Under ticket write ∧
      w.land ticket = { w.apply write with flying := w.flying.filter (·.1 != ticket) } := by
  unfold World.land
  split
  · next k write hfound =>
    have hk := List.find?_some hfound
    obtain rfl : k = ticket := by simpa using hk
    exact .inr ⟨write, List.mem_of_find?_eq_some hfound, rfl⟩
  · exact .inl rfl

theorem grows_write (h : w.Consistent S strict) {ticket : ℕ} {write : Write} {cache : (key : Key) → Option key.Value}
    (hu : w.Under ticket write) (hwrite : ∀ g, write ≠ .put .generation g)
    (hgeneration : cache .generation = w.cache .generation) :
    w.Grows { w with cache := cache, flying := w.flying.filter (·.1 != ticket) } :=
  { World.Grows.refl w with
    renewed := fun o _ ⟨e, he, hle⟩ => ⟨e, (congrArg w.bornAt hgeneration).trans he, hle⟩
    lands := fun ticket' g hg => by
      refine .inl ((under_filter rfl).mpr ⟨hg, ?_⟩)
      rintro rfl
      exact hwrite g (under_unique h hu hg) }

theorem consistent_write (h : w.Consistent S strict) {ticket : ℕ} {cache : (key : Key) → Option key.Value}
    (hcache : ∀ key value, cache key = some value → w.cache key = some value ∨ w.Under ticket (.put key value))
    (hgeneration : cache .generation = w.cache .generation) :
    ({ w with cache := cache, flying := w.flying.filter (·.1 != ticket) } : World).Consistent S strict := by
  have hunder : ∀ {ticket' write}, (⟨ticket', write⟩ : ℕ × Write) ∈ w.flying.filter (·.1 != ticket) →
      w.Under ticket' write := fun hmem => (List.mem_filter.mp hmem).1
  exact { h with
    sound := fun key value hv => (hcache key value hv).elim (h.sound key value) (h.putSound ticket key value)
    points := fun pointer hp => (hcache .current pointer hp).elim (h.points pointer) (h.putPoints ticket pointer)
    putSound := fun ticket' key value hu => h.putSound ticket' key value (hunder hu)
    putPoints := fun ticket' pointer hu => h.putPoints ticket' pointer (hunder hu)
    deletes := fun ticket' key hu => h.deletes ticket' key (hunder hu)
    nodup := h.nodup.sublist (List.filter_sublist.map _)
    below := fun x hx => h.below x (List.mem_filter.mp hx).1
    unborn := fun ticket' g hu => h.unborn ticket' g (hunder hu)
    drawn := fun ticket' g hu => h.drawn ticket' g (hunder hu)
    once := fun k k' g hu hu' => h.once k k' g (hunder hu) (hunder hu')
    renewed := by
      obtain ⟨e, he, hle⟩ := h.renewed
      exact ⟨e, (congrArg w.bornAt hgeneration).trans he, hle⟩ }

/-- The world in which a generation is written. -/
def World.writeGeneration (w : World) (ticket g : ℕ) : World :=
  { w with
    cache := Function.update w.cache .generation (some g)
    born := Function.update w.born g (some w.moment.epoch)
    flying := w.flying.filter (·.1 != ticket) }

theorem renewed_writeGeneration (w : World) (ticket g : ℕ) : (w.writeGeneration ticket g).Renewed w.moment.epoch := by
  refine ⟨w.moment.epoch, ?_, le_rfl⟩
  show (w.writeGeneration ticket g).bornAt (Function.update w.cache .generation (some g) .generation) = _
  rw [Function.update_self]
  exact Function.update_self ..

theorem grows_writeGeneration (h : w.Consistent S strict) {ticket g : ℕ} (hu : w.Under ticket (.put .generation g)) :
    w.Grows (w.writeGeneration ticket g) :=
  { World.Grows.refl w with
    born := fun g' e he => by
      have hne : g' ≠ g := by
        rintro rfl
        rw [h.unborn ticket g' hu] at he
        cases he
      exact (Function.update_of_ne hne ..).trans he
    renewed := fun o ho _ => (renewed_writeGeneration w ticket g).mono ho
    lands := fun ticket' g' hg => by
      by_cases hsame : ticket' = ticket
      · exact .inr (renewed_writeGeneration w ticket g)
      · exact .inl ((under_filter rfl).mpr ⟨hg, hsame⟩) }

/-- A published generation keeps the store consistent. -/
theorem consistent_writeGeneration (h : w.Consistent S strict) {ticket g : ℕ}
    (hu : w.Under ticket (.put .generation g)) : (w.writeGeneration ticket g).Consistent S strict := by
  have hgrows := grows_writeGeneration h hu
  have hunder : ∀ {ticket' write}, (w.writeGeneration ticket g).Under ticket' write →
      w.Under ticket' write ∧ ticket' ≠ ticket := fun hmem => (under_filter rfl).mp hmem
  have hother : ∀ key value, (w.writeGeneration ticket g).cache key = some value → key ≠ .generation →
      w.cache key = some value := fun key value hv hne => (Function.update_of_ne hne ..).symm.trans hv
  exact { h with
    sound := fun key value hv => by
      by_cases hkey : key = .generation
      · subst hkey
        trivial
      · exact h.sound key value (hother key value hv hkey)
    points := fun pointer hp => hgrows.points (h.points pointer (hother .current pointer hp (by decide)))
    putSound := fun ticket' key value hu => h.putSound ticket' key value (hunder hu).1
    putPoints := fun ticket' pointer hu => hgrows.points (h.putPoints ticket' pointer (hunder hu).1)
    deletes := fun ticket' key hu => h.deletes ticket' key (hunder hu).1
    nodup := h.nodup.sublist (List.filter_sublist.map _)
    below := fun x hx => h.below x (List.mem_filter.mp hx).1
    unborn := fun ticket' g' hu' => by
      have hne : g' ≠ g := by
        rintro rfl
        exact (hunder hu').2 (h.once ticket' ticket g' (hunder hu').1 hu)
      exact (Function.update_of_ne hne ..).trans (h.unborn ticket' g' (hunder hu').1)
    drawn := fun ticket' g' hu' => h.drawn ticket' g' (hunder hu').1
    once := fun k k' g' hk hk' => h.once k k' g' (hunder hk).1 (hunder hk').1
    fresh := fun g' hg' => by
      have hne : g' ≠ g := by
        rintro rfl
        exact absurd (h.drawn ticket g' hu) (Nat.not_lt.mpr hg')
      exact (Function.update_of_ne hne ..).trans (h.fresh g' hg')
    born := fun g' e he => by
      by_cases hg : g' = g
      · subst hg
        have hepoch : Function.update w.born g' (some w.moment.epoch) g' = some e := he
        rw [Function.update_self] at hepoch
        exact (Option.some.inj hepoch).symm.le
      · exact h.born g' e ((Function.update_of_ne hg ..).symm.trans he)
    renewed := (renewed_writeGeneration w ticket g).mono h.floor
    settled := fun hs flight catalogue hr => h.settled hs flight catalogue hr }

theorem land_survived (h : w.Consistent S strict) (ticket : ℕ) :
    w.Grows (w.land ticket) ∧ (w.land ticket).Consistent S strict := by
  rcases land_cases w ticket with hsame | ⟨write, hu, hland⟩
  · rw [hsame]
    exact ⟨World.Grows.refl w, h⟩
  rw [hland]
  cases write with
  | put key value =>
    have hcache : ∀ key' value', Function.update w.cache key (some value) key' = some value' →
        w.cache key' = some value' ∨ w.Under ticket (.put key' value') := by
      intro key' value' hv
      by_cases hkey : key' = key
      · subst hkey
        rw [Function.update_self] at hv
        exact .inr (Option.some.inj hv ▸ hu)
      · exact .inl ((Function.update_of_ne hkey ..).symm.trans hv)
    cases key with
    | current =>
      exact ⟨grows_write h hu (fun g hg => by cases hg) rfl, consistent_write h hcache rfl⟩
    | generation => exact ⟨grows_writeGeneration h hu, consistent_writeGeneration h hu⟩
    | chunk key =>
      exact ⟨grows_write h hu (fun g hg => by cases hg) rfl, consistent_write h hcache rfl⟩
  | delete key =>
    obtain rfl := h.deletes ticket key hu
    refine ⟨grows_write h hu (fun g hg => by cases hg) rfl, consistent_write h (fun key' value' hv => ?_) rfl⟩
    by_cases hkey : key' = .current
    · subst hkey
      cases hv
    · exact .inl ((Function.update_of_ne hkey ..).symm.trans hv)

theorem once_kept {f : ℕ → Option ℕ} (t d : ℕ) {u x : ℕ} (h : f u = some x) :
    Function.update f t (some ((f t).getD d)) u = some x := by
  by_cases hu : u = t
  · subst hu
    rw [Function.update_self, h, Option.getD_some]
  · rw [Function.update_of_ne hu, h]

theorem once_cases {f : ℕ → Option ℕ} {t d u x : ℕ} (h : Function.update f t (some ((f t).getD d)) u = some x) :
    f u = some x ∨ (u = t ∧ x = d) := by
  by_cases hu : u = t
  · subst hu
    rw [Function.update_self] at h
    cases hf : f u with
    | some y =>
      rw [hf, Option.getD_some] at h
      exact .inl h
    | none =>
      rw [hf, Option.getD_none] at h
      exact .inr ⟨rfl, (Option.some.inj h).symm⟩
  · rw [Function.update_of_ne hu] at h
    exact .inl h

/-! ### The branch, the processes and their calls -/

theorem grows_pass (w : World) {next : Moment} (htime : w.moment.time ≤ next.time) (hepoch : w.moment.epoch ≤ next.epoch) :
    w.Grows (w.pass next) :=
  { World.Grows.refl w with
    time := htime
    epoch := hepoch
    history := fun _ hm => List.mem_cons_of_mem _ hm }

theorem consistent_pass (h : w.Consistent S strict) {next : Moment} (htime : w.moment.time ≤ next.time)
    (hepoch : w.moment.epoch ≤ next.epoch) : (w.pass next).Consistent S strict := by
  have hgrows := grows_pass w htime hepoch
  exact { h with
    points := fun pointer hp => hgrows.points (h.points pointer hp)
    putPoints := fun ticket pointer hu => hgrows.points (h.putPoints ticket pointer hu)
    born := fun g e he => (h.born g e he).trans hepoch
    floor := h.floor.trans hepoch
    opened := fun t o ho => (h.opened t o ho).trans hepoch
    settled := fun hs flight catalogue hr =>
      let ⟨f, hbegan, hc⟩ := h.settled hs flight catalogue hr
      ⟨f, hbegan, hgrows.covers hc⟩ }

/-- A thread begins an invalidation. -/
def World.invalidating (w : World) (t : ℕ) : World :=
  { w with opened := Function.update w.opened t (some ((w.opened t).getD w.moment.epoch)) }

theorem consistent_invalidating (h : w.Consistent S strict) (t : ℕ) : (w.invalidating t).Consistent S strict :=
  { h with
    opened := fun u o ho => by
      rcases once_cases ho with ho | ⟨-, rfl⟩
      · exact h.opened u o ho
      · exact le_rfl }

theorem grows_invalidated (w : World) (floor : ℕ) : w.Grows { w with floor := floor } :=
  { World.Grows.refl w with }

theorem consistent_invalidated (h : w.Consistent S strict) {o : ℕ} (hrenewed : w.Renewed o) (ho : o ≤ w.moment.epoch) :
    ({ w with floor := max w.floor o } : World).Consistent S strict :=
  { h with
    renewed := by
      rcases Nat.le_total w.floor o with hle | hle
      · show w.Renewed (max w.floor o)
        rw [max_eq_right hle]
        exact hrenewed
      · show w.Renewed (max w.floor o)
        rw [max_eq_left hle]
        exact h.renewed
    floor := max_le h.floor ho
    due := fun t d hd => (h.due t d hd).trans (le_max_left ..)
    began := fun flight f hf => (h.began flight f hf).trans (le_max_left ..) }

def World.call (w : World) (t : ℕ) : World :=
  { w with due := Function.update w.due t (some ((w.due t).getD w.floor)) }

theorem grows_call (w : World) (t : ℕ) : w.Grows (w.call t) :=
  { World.Grows.refl w with due := fun _ _ hd => once_kept t w.floor hd }

theorem consistent_call (h : w.Consistent S strict) (t : ℕ) : (w.call t).Consistent S strict :=
  { h with
    due := fun u d hd => by
      rcases once_cases hd with hd | ⟨-, rfl⟩
      · exact h.due u d hd
      · exact le_rfl }

/-! ### Requests in flight -/

/-- The promises change, and nothing that was known of them. -/
structure Promising (w : World) (promises : List Promise) : Prop where
  length : w.promises.length ≤ promises.length
  began : ∀ flight f, w.began flight = some f → (promises[flight]?.bind (·.began)) = some f
  begins : ∀ flight f, (promises[flight]?.bind (·.began)) = some f → w.began flight = some f ∨ f = w.floor
  results : ∀ flight r, w.resultOf flight = some r → (promises[flight]?.bind (·.result)) = some r

theorem grows_promising {promises : List Promise} (h : Promising w promises) : w.Grows { w with promises := promises } :=
  { World.Grows.refl w with
    promises := h.length
    began := h.began
    begins := h.begins
    results := h.results }

theorem consistent_promising (h : w.Consistent S strict) {promises : List Promise} (hp : Promising w promises)
    (hsettled : strict → ∀ flight catalogue, (promises[flight]?.bind (·.result)) = some (.ok catalogue) →
      w.resultOf flight = some (.ok catalogue) ∨ ∃ f, w.began flight = some f ∧ w.Covers catalogue.revision f) :
    ({ w with promises := promises } : World).Consistent S strict :=
  { h with
    began := fun flight f hf => by
      rcases hp.begins flight f hf with hf | rfl
      · exact h.began flight f hf
      · exact le_rfl
    settled := fun hs flight catalogue hr => by
      rcases hsettled hs flight catalogue hr with hr | ⟨f, hbegan, hc⟩
      · obtain ⟨f, hbegan, hc⟩ := h.settled hs flight catalogue hr
        exact ⟨f, hp.began flight f hbegan, hc⟩
      · exact ⟨f, hp.began flight f hbegan, hc⟩ }

theorem bind_append {α : Type} (promises : List Promise) (f : Promise → Option α) (hnone : f ⟨none, none⟩ = none)
    (flight : ℕ) : ((promises ++ [⟨none, none⟩])[flight]?.bind f) = promises[flight]?.bind f := by
  rcases Nat.lt_trichotomy flight promises.length with hlt | heq | hgt
  · rw [List.getElem?_append_left hlt]
  · rw [heq, List.getElem?_concat_length, Option.bind_some, hnone, List.getElem?_eq_none (le_refl _), Option.bind_none]
  · rw [List.getElem?_eq_none (by simp; omega), List.getElem?_eq_none (by omega)]

theorem promising_append (w : World) : Promising w (w.promises ++ [⟨none, none⟩]) where
  length := by simp
  began flight _ hf := (bind_append w.promises (·.began) rfl flight).trans hf
  begins flight _ hf := .inl ((bind_append w.promises (·.began) rfl flight).symm.trans hf)
  results flight _ hr := (bind_append w.promises (·.result) rfl flight).trans hr

theorem bind_modify {α : Type} (promises : List Promise) (g : Promise → Promise) (f : Promise → Option α)
    (flight other : ℕ) : ((promises.modify flight g)[other]?.bind f) =
      if flight = other then promises[other]?.bind fun p => f (g p) else promises[other]?.bind f := by
  rw [List.getElem?_modify]
  split
  · cases promises[other]? <;> rfl
  · cases promises[other]? <;> rfl

theorem promising_take (w : World) (flight : ℕ) :
    Promising w (w.promises.modify flight fun p => { p with began := p.began.or (some w.floor) }) where
  length := (List.length_modify ..).ge
  began other f hf := by
    rw [bind_modify]
    split
    · obtain ⟨p, hp, hbegan⟩ := Option.bind_eq_some_iff.mp hf
      rw [hp, Option.bind_some, hbegan, Option.some_or]
    · exact hf
  begins other f hf := by
    rw [bind_modify] at hf
    split at hf
    · obtain ⟨p, hp, hbegan⟩ := Option.bind_eq_some_iff.mp hf
      cases hb : p.began with
      | none =>
        rw [hb, Option.none_or] at hbegan
        exact .inr (Option.some.inj hbegan).symm
      | some f' =>
        rw [hb, Option.some_or] at hbegan
        rw [World.began, hp, Option.bind_some, hb]
        exact .inl hbegan
    · exact .inl hf
  results other r hr := by
    rw [bind_modify]
    split
    · exact hr
    · exact hr

theorem promising_settle (w : World) (flight : ℕ) (result : Result) :
    Promising w (w.promises.modify flight fun p => { p with result := p.result.or (some result) }) where
  length := (List.length_modify ..).ge
  began other f hf := by
    rw [bind_modify]
    split
    · exact hf
    · exact hf
  begins other f hf := by
    rw [bind_modify] at hf
    split at hf
    · exact .inl hf
    · exact .inl hf
  results other r hr := by
    rw [bind_modify]
    split
    · obtain ⟨p, hp, hresult⟩ := Option.bind_eq_some_iff.mp hr
      rw [hp, Option.bind_some, hresult, Option.some_or]
    · exact hr

theorem settled_cases {flight other : ℕ} {result r : Result}
    (h : ((w.promises.modify flight fun p => { p with result := p.result.or (some result) })[other]?.bind (·.result)) =
      some r) : w.resultOf other = some r ∨ (other = flight ∧ r = result) := by
  rw [bind_modify] at h
  split at h
  · next hsame =>
    obtain ⟨p, hp, hresult⟩ := Option.bind_eq_some_iff.mp h
    cases hr : p.result with
    | none =>
      rw [hr, Option.none_or] at hresult
      exact .inr ⟨hsame.symm, (Option.some.inj hresult).symm⟩
    | some r' =>
      rw [hr, Option.some_or] at hresult
      rw [World.resultOf, hp, Option.bind_some, hr]
      exact .inl hresult
  · exact .inl h

end Changes

end ADT.Catalogue
