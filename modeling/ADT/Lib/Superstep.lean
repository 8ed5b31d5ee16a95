import Mathlib.Tactic
import Mathlib.Data.Finset.Basic
import Mathlib.Data.Finset.Card
import Mathlib.Data.Finset.Union

/-!
# Lib.Superstep — graphs executed in supersteps

A state graph in the sense of bulk-synchronous graph runtimes: plain edges, conditional edges that follow
the route of an outcome, and waiting edges that trigger their target once all their sources have run
since its last trigger.  All nodes active in a superstep run, and what they trigger is active in the next.

A graph is `Structured` when every waiting edge closes one fan-out directly.  Its sources are then active
together or not at all (`allOrNone`), nothing is ever half arrived, and a superstep is an image
(`mem_active_succ`).  On top of that:

* `disciplined_iff`: a run keeps to one token, or the branches of one closed fan-out, exactly when every
  fan-out it runs is closed;
* `both_active_iff`: two nodes are active together in some run exactly when they `Diverge`.
-/

namespace ADT.Superstep

variable {ν β : Type}

/-- What is added to the graph builder; `route a b` is the route of the conditional edges of `a` for the
outcome `b`. -/
structure StateGraph (ν β : Type) where
  entry : ν
  plain : List (ν × ν)
  route : ν → β → Option ν
  waiting : List (List ν × ν)

/-- The nodes active in a superstep and, for each waiting edge, the sources that have run since it last
triggered its target. -/
structure State (ν : Type) where
  active : Finset ν
  arrived : List ν × ν → Finset ν

namespace StateGraph

variable (g : StateGraph ν β)

/-- The targets `a` triggers by itself. -/
def triggers (outcome : ν → β) [DecidableEq ν] (a : ν) : List ν :=
  (g.plain.filter (·.1 = a)).map (·.2) ++ (g.route a (outcome a)).toList

def start : State ν := ⟨{g.entry}, fun _ => ∅⟩

end StateGraph

namespace State

variable [DecidableEq ν] (s : State ν)

/-- The sources of the waiting edge that have run, this superstep included. -/
def ran (b : List ν × ν) : Finset ν := s.arrived b ∪ b.1.toFinset ∩ s.active

def released (b : List ν × ν) : Bool := b.1.toFinset ⊆ s.ran b

end State

namespace StateGraph

variable [DecidableEq ν] (g : StateGraph ν β)

def step (outcome : ν → β) (s : State ν) : State ν where
  active := s.active.biUnion (fun a => (g.triggers outcome a).toFinset) ∪
    ((g.waiting.filter s.released).map (·.2)).toFinset
  arrived b := if s.released b then ∅ else s.ran b

/-- The run in which the conditional nodes active at superstep `n` have the outcomes `outcome n`. -/
def run (outcome : ℕ → ν → β) : ℕ → State ν
  | 0 => g.start
  | n + 1 => g.step (outcome n) (run outcome n)

/-- `a` feeds `t` whatever the outcomes are. -/
def Feeds (a t : ν) : Prop := (a, t) ∈ g.plain ∨ ∃ b ∈ g.waiting, b.2 = t ∧ a ∈ b.1

/-- `a` passes a token on to `t` under these outcomes. -/
def Fires (outcome : ν → β) (a t : ν) : Prop := g.Feeds a t ∨ g.route a (outcome a) = some t

/-- There is an edge of some kind from `a` to `t`. -/
def Arc (a t : ν) : Prop := g.Feeds a t ∨ ∃ b, g.route a b = some t

/-- A node that feeds two targets at once. -/
def FanOut (o : ν) : Prop := ∃ t t', t ≠ t' ∧ g.Feeds o t ∧ g.Feeds o t'

/-- All that `o` feeds are sources of one waiting edge. -/
def Closed (o : ν) : Prop := ∃ b ∈ g.waiting, ∀ t, g.Feeds o t → t ∈ b.1

/-- The waiting edge `b` closes the fan-out of `o`: the sources of `b` are what `o` feeds, nothing else
leads to them, and they feed nothing but the target of `b`. -/
structure Closes (b : List ν × ν) (o : ν) : Prop where
  nonempty : b.1 ≠ []
  feeds_iff : ∀ t, g.Feeds o t ↔ t ∈ b.1
  only_in : ∀ t ∈ b.1, ∀ a, g.Arc a t → a = o
  only_out : ∀ t ∈ b.1, ∀ u, g.Arc t u → u = b.2
  not_entry : ∀ t ∈ b.1, t ≠ g.entry
  not_waiting : ∀ t ∈ b.1, ∀ b' ∈ g.waiting, b'.2 ≠ t

/-- Every waiting edge closes a fan-out, and a node with conditional edges has no others. -/
structure Structured : Prop where
  closes : ∀ b ∈ g.waiting, ∃ o, g.Closes b o
  choice : ∀ a b t, g.route a b = some t → ∀ u, ¬ g.Feeds a u

variable {g} {outcome : ℕ → ν → β}
variable {c : ν → β} {a t : ν} {s : State ν}

theorem mem_triggers : t ∈ g.triggers c a ↔ (a, t) ∈ g.plain ∨ g.route a (c a) = some t := by
  simp only [triggers, List.mem_append, List.mem_map, List.mem_filter, Option.mem_toList]
  constructor
  · rintro (⟨⟨x, y⟩, ⟨hm, hx⟩, rfl⟩ | h)
    · obtain rfl : x = a := by simpa using hx
      exact .inl hm
    · exact .inr h
  · rintro (h | h)
    · exact .inl ⟨(a, t), ⟨h, by simp⟩, rfl⟩
    · exact .inr h

theorem fires_of_triggers (h : t ∈ g.triggers c a) : g.Fires c a t := by
  rcases mem_triggers.mp h with h | h
  · exact .inl (.inl h)
  · exact .inr h

omit [DecidableEq ν] in
theorem Fires.arc (h : g.Fires c a t) : g.Arc a t := by
  rcases h with h | h
  · exact .inl h
  · exact .inr ⟨_, h⟩

/-- Nothing is half arrived, and the sources of a waiting edge are active together or not at all. -/
structure AllOrNone (g : StateGraph ν β) (s : State ν) : Prop where
  arrived : ∀ b ∈ g.waiting, s.arrived b = ∅
  together : ∀ b ∈ g.waiting, (∀ t ∈ b.1, t ∈ s.active) ∨ ∀ t ∈ b.1, t ∉ s.active

theorem released_iff (hg : g.Structured) (hs : AllOrNone g s) {b : List ν × ν}
    (hb : b ∈ g.waiting) : s.released b = true ↔ ∃ t ∈ b.1, t ∈ s.active := by
  obtain ⟨o, ho⟩ := hg.closes b hb
  obtain ⟨t, ht⟩ := List.exists_mem_of_ne_nil _ ho.nonempty
  simp only [State.released, State.ran, hs.arrived b hb, decide_eq_true_eq, Finset.empty_union,
    Finset.subset_iff, List.mem_toFinset, Finset.mem_inter]
  constructor
  · intro h
    exact ⟨t, ht, (h ht).2⟩
  · rintro ⟨u, hu, hact⟩ v hv
    rcases hs.together b hb with h | h
    · exact ⟨hv, h v hv⟩
    · exact absurd hact (h u hu)

theorem mem_step (hg : g.Structured) (hs : AllOrNone g s) :
    t ∈ (g.step c s).active ↔ ∃ a ∈ s.active, g.Fires c a t := by
  simp only [step, Finset.mem_union, Finset.mem_biUnion, List.mem_toFinset, List.mem_map,
    List.mem_filter]
  constructor
  · rintro (⟨a, ha, ht⟩ | ⟨b, ⟨hb, hr⟩, rfl⟩)
    · exact ⟨a, ha, fires_of_triggers ht⟩
    · obtain ⟨a, hab, ha⟩ := (released_iff hg hs hb).mp hr
      exact ⟨a, ha, .inl (.inr ⟨b, hb, rfl, hab⟩)⟩
  · rintro ⟨a, ha, (h | ⟨b, hb, rfl, hab⟩) | h⟩
    · exact .inl ⟨a, ha, mem_triggers.mpr (.inl h)⟩
    · exact .inr ⟨b, ⟨hb, (released_iff hg hs hb).mpr ⟨a, hab, ha⟩⟩, rfl⟩
    · exact .inl ⟨a, ha, mem_triggers.mpr (.inr h)⟩

omit [DecidableEq ν] in
theorem allOrNone_start (hg : g.Structured) : AllOrNone g g.start where
  arrived _ _ := rfl
  together b hb := by
    obtain ⟨o, ho⟩ := hg.closes b hb
    refine .inr fun t ht hact => ho.not_entry t ht ?_
    simpa [start] using hact

theorem allOrNone_step (hg : g.Structured) (hs : AllOrNone g s) (c : ν → β) : AllOrNone g (g.step c s) where
  arrived b hb := by
    show (if s.released b then ∅ else s.ran b) = ∅
    by_cases hr : s.released b = true
    · rw [if_pos hr]
    · rw [if_neg hr, State.ran, hs.arrived b hb, Finset.empty_union]
      refine Finset.eq_empty_of_forall_notMem fun t ht => hr ?_
      rw [Finset.mem_inter, List.mem_toFinset] at ht
      exact (released_iff hg hs hb).mpr ⟨t, ht⟩
  together b hb := by
    obtain ⟨o, ho⟩ := hg.closes b hb
    by_cases hact : o ∈ s.active
    · exact .inl fun t ht => (mem_step hg hs).mpr ⟨o, hact, .inl ((ho.feeds_iff t).mpr ht)⟩
    · refine .inr fun t ht htact => hact ?_
      obtain ⟨a, ha, hf⟩ := (mem_step hg hs).mp htact
      rwa [← ho.only_in t ht a hf.arc]

/-- **In every run** the sources of a waiting edge are active together or not at all. -/
theorem allOrNone (hg : g.Structured) : ∀ n, AllOrNone g (g.run outcome n)
  | 0 => allOrNone_start hg
  | n + 1 => allOrNone_step hg (allOrNone hg n) (outcome n)

theorem mem_active_succ (hg : g.Structured) {n : ℕ} : t ∈ (g.run outcome (n + 1)).active ↔
      ∃ a ∈ (g.run outcome n).active, g.Fires (outcome n) a t :=
  mem_step hg (allOrNone hg n)

/-! ### Token discipline -/

/-- At most one token, or tokens on branches of one fan-out that one waiting edge closes. -/
def Disciplined (g : StateGraph ν β) (s : State ν) : Prop :=
  s.active.card ≤ 1 ∨ ∃ o, ∃ b ∈ g.waiting, ∀ t ∈ s.active, g.Feeds o t ∧ t ∈ b.1

omit [DecidableEq ν] in
theorem Fires.fanOut (hg : g.Structured) {u : ν} (ht : g.Fires c a t)
    (hu : g.Fires c a u) (hne : t ≠ u) : g.FanOut a := by
  rcases ht with ht | ht
  · rcases hu with hu | hu
    · exact ⟨t, u, hne, ht, hu⟩
    · exact absurd ht (hg.choice a _ u hu t)
  · rcases hu with hu | hu
    · exact absurd hu (hg.choice a _ t ht u)
    · rw [ht] at hu
      exact absurd (Option.some.inj hu) hne

theorem disciplined_step (hg : g.Structured) (hs : AllOrNone g s) (hd : Disciplined g s)
    (hc : ∀ o ∈ s.active, g.FanOut o → g.Closed o) (c : ν → β) : Disciplined g (g.step c s) := by
  by_cases hcard : (g.step c s).active.card ≤ 1
  · exact .inl hcard
  · obtain ⟨t, ht, u, hu, hne⟩ := Finset.one_lt_card.mp (not_le.mp hcard)
    obtain ⟨a, ha, hat⟩ := (mem_step hg hs).mp ht
    obtain ⟨a', ha', hau⟩ := (mem_step hg hs).mp hu
    rcases hd with hone | ⟨o, b, hb, hsib⟩
    · -- one token: two successors make its node a fan-out, which is closed
      have hsame : ∀ x ∈ s.active, x = a := fun x hx => Finset.card_le_one.mp hone x hx a ha
      obtain rfl : a' = a := hsame a' ha'
      obtain ⟨b, hb, hall⟩ := hc a' ha' (hat.fanOut hg hau hne)
      refine .inr ⟨a', b, hb, fun x hx => ?_⟩
      obtain ⟨y, hy, hf⟩ := (mem_step hg hs).mp hx
      obtain rfl := hsame y hy
      have hfeeds : g.Feeds y x := by
        rcases hf with hf | hf
        · exact hf
        · obtain ⟨v, -, -, hv, -⟩ := hat.fanOut hg hau hne
          exact absurd hv (hg.choice y _ x hf v)
      exact ⟨hfeeds, hall x hfeeds⟩
    · -- branches of a closed fan-out: all of them lead to the one target
      obtain ⟨o', ho'⟩ := hg.closes b hb
      have h1 := ho'.only_out a (hsib a ha).2 t hat.arc
      have h2 := ho'.only_out a' (hsib a' ha').2 u hau.arc
      exact absurd (h1.trans h2.symm) hne

theorem closed_of_disciplined_step (hg : g.Structured) (hs : AllOrNone g s)
    (hd : Disciplined g (g.step c s)) {o : ν} (ho : o ∈ s.active) (hf : g.FanOut o) : g.Closed o := by
  obtain ⟨t, u, hne, ht, hu⟩ := hf
  have htm : t ∈ (g.step c s).active := (mem_step hg hs).mpr ⟨o, ho, .inl ht⟩
  have hum : u ∈ (g.step c s).active := (mem_step hg hs).mpr ⟨o, ho, .inl hu⟩
  rcases hd with hone | ⟨o', b, hb, hall⟩
  · exact absurd (Finset.card_le_one.mp hone t htm u hum) hne
  · obtain ⟨p, hp⟩ := hg.closes b hb
    obtain rfl : o = p := hp.only_in t (hall t htm).2 o (.inl ht)
    exact ⟨b, hb, fun v hv => (hp.feeds_iff v).mp hv⟩

/-- **A run is disciplined up to superstep `N` exactly when every fan-out it runs before `N` is
closed.** -/
theorem disciplined_iff (hg : g.Structured) (outcome : ℕ → ν → β) (N : ℕ) :
    (∀ n ≤ N, Disciplined g (g.run outcome n)) ↔
      ∀ n < N, ∀ o ∈ (g.run outcome n).active, g.FanOut o → g.Closed o := by
  constructor
  · intro h n hn o ho hf
    exact closed_of_disciplined_step hg (allOrNone hg n) (h (n + 1) hn) ho hf
  · intro h n
    induction n with
    | zero => exact fun _ => .inl (by simp [run, start])
    | succ n ih =>
      intro hn
      exact disciplined_step hg (allOrNone hg n) (ih (by omega)) (h n (by omega)) (outcome n)

theorem trigger_unique (hg : g.Structured) (hd : Disciplined g s) {a' : ν}
    (ha : a ∈ s.active) (ha' : a' ∈ s.active) (ht : t ∈ g.triggers c a) (hn : ∀ b ∈ g.waiting, b.2 ≠ t) : a = a' := by
  rcases hd with hone | ⟨o, b, hb, hall⟩
  · exact Finset.card_le_one.mp hone a ha a' ha'
  · obtain ⟨p, hp⟩ := hg.closes b hb
    exact absurd (hp.only_out a (hall a ha).2 t (fires_of_triggers ht).arc).symm (hn b hb)

/-! ### Nodes active together -/

theorem run_congr {c c' : ℕ → ν → β} : ∀ {n : ℕ}, (∀ i < n, c i = c' i) → g.run c n = g.run c' n
  | 0, _ => rfl
  | n + 1, h => by
    show g.step (c n) (g.run c n) = g.step (c' n) (g.run c' n)
    rw [run_congr fun i hi => h i (by omega), h n (by omega)]

theorem run_extend (g : StateGraph ν β) (c : ℕ → ν → β) (n : ℕ) (d : ν → β) :
    ∃ c' : ℕ → ν → β, g.run c' n = g.run c n ∧ c' n = d :=
  ⟨fun i => if i = n then d else c i, run_congr fun i hi => by simp [Nat.ne_of_lt hi], by simp⟩

/-- Two tokens that left one node by different edges and never met since. -/
inductive Diverge (g : StateGraph ν β) : ν → ν → Prop
  | fork {o a b : ν} : Relation.ReflTransGen g.Arc g.entry o → g.Feeds o a → g.Feeds o b → a ≠ b →
      Diverge g a b
  | step {x y a b : ν} : Diverge g x y → g.Arc x a → g.Arc y b → a ≠ b → Diverge g a b

theorem reach_of_active (hg : g.Structured) : ∀ (n : ℕ) {a : ν}, a ∈ (g.run outcome n).active →
    Relation.ReflTransGen g.Arc g.entry a
  | 0, a, ha => by
    obtain rfl : a = g.entry := by simpa [run, start] using ha
    exact .refl
  | n + 1, a, ha => by
    obtain ⟨x, hx, hf⟩ := (mem_active_succ hg).mp ha
    exact (reach_of_active hg n hx).tail hf.arc

theorem diverge_of_active (hg : g.Structured) : ∀ (n : ℕ) {a b : ν}, a ∈ (g.run outcome n).active →
    b ∈ (g.run outcome n).active → a ≠ b → Diverge g a b
  | 0, a, b, ha, hb, hne => by
    simp only [run, start, Finset.mem_singleton] at ha hb
    exact absurd (ha.trans hb.symm) hne
  | n + 1, a, b, ha, hb, hne => by
    obtain ⟨x, hx, hxa⟩ := (mem_active_succ hg).mp ha
    obtain ⟨y, hy, hyb⟩ := (mem_active_succ hg).mp hb
    by_cases hxy : x = y
    · subst hxy
      obtain ⟨u, v, -, hu, -⟩ := hxa.fanOut hg hyb hne
      have hfeed : ∀ t, g.Fires (outcome n) x t → g.Feeds x t := fun t ht =>
        ht.resolve_right fun hr => hg.choice x _ t hr u hu
      exact .fork (reach_of_active hg n hx) (hfeed a hxa) (hfeed b hyb) hne
    · exact .step (diverge_of_active hg n hx hy hxy) hxa.arc hyb.arc hne

omit [DecidableEq ν] in
theorem Arc.fires [Nonempty β] (h : g.Arc a t) : ∃ b : β, ∀ c : ν → β, c a = b → g.Fires c a t := by
  rcases h with h | ⟨b, hb⟩
  · exact ⟨Classical.arbitrary β, fun c _ => .inl h⟩
  · exact ⟨b, fun c hc => .inr (by rw [hc, hb])⟩

theorem active_of_reach [Nonempty β] (hg : g.Structured) (h : Relation.ReflTransGen g.Arc g.entry a) :
    ∃ (c : ℕ → ν → β) (n : ℕ), a ∈ (g.run c n).active := by
  induction h with
  | refl => exact ⟨fun _ _ => Classical.arbitrary β, 0, by simp [run, start]⟩
  | @tail x t _ harc ih =>
    obtain ⟨c, n, hx⟩ := ih
    obtain ⟨b, hb⟩ := harc.fires
    obtain ⟨c', hrun, hc'⟩ := g.run_extend c n fun _ => b
    refine ⟨c', n + 1, (mem_active_succ hg).mpr ⟨x, by rwa [hrun], hb _ (by rw [hc'])⟩⟩

theorem active_of_diverge [Nonempty β] (hg : g.Structured) {b : ν} (h : Diverge g a b) :
    a ≠ b ∧ ∃ (c : ℕ → ν → β) (n : ℕ), a ∈ (g.run c n).active ∧ b ∈ (g.run c n).active := by
  induction h with
  | fork hreach ha hb hne =>
    obtain ⟨c, n, ho⟩ := active_of_reach hg hreach
    exact ⟨hne, c, n + 1, (mem_active_succ hg).mpr ⟨_, ho, .inl ha⟩,
      (mem_active_succ hg).mpr ⟨_, ho, .inl hb⟩⟩
  | @step x y a b _ hxa hyb hne ih =>
    obtain ⟨hxy, c, n, hx, hy⟩ := ih
    obtain ⟨p, hp⟩ := hxa.fires
    obtain ⟨q, hq⟩ := hyb.fires
    -- the tokens are on different nodes, so both outcomes can be had at once
    obtain ⟨c', hrun, hc'⟩ := g.run_extend c n fun z => if z = x then p else q
    refine ⟨hne, c', n + 1, (mem_active_succ hg).mpr ⟨x, by rwa [hrun], hp _ (by simp [hc'])⟩,
      (mem_active_succ hg).mpr ⟨y, by rwa [hrun], hq _ ?_⟩⟩
    simp [hc', hxy.symm]

/-- **Two nodes are active together in some run exactly when they diverge.** -/
theorem both_active_iff [Nonempty β] (hg : g.Structured) {b : ν} :
    (a ≠ b ∧ ∃ (c : ℕ → ν → β) (n : ℕ), a ∈ (g.run c n).active ∧ b ∈ (g.run c n).active) ↔ Diverge g a b :=
  ⟨fun ⟨hne, _, n, ha, hb⟩ => diverge_of_active hg n ha hb hne, active_of_diverge hg⟩

end StateGraph

end ADT.Superstep
