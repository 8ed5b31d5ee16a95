import Mathlib.Tactic
import Mathlib.Logic.Relation
import Mathlib.Data.List.Basic

/-!
# Lib.Search — depth-first search with one shared seen-set

`search pre post key succ` is the recursive search many programs write inline: look at a node
(`pre` may answer at once), give up on a key seen before, mark the key, look again (`post`), then try
the successors in order, handing the growing seen-set from one to the next and stopping at the first
hit.  The fuel bounds the recursion depth; a universe of keys with fewer unseen members than the fuel
is enough (`Enough`).

* `search_sound`: a hit is a hit at the end of a path.
* `search_complete`: with enough fuel a miss closes the seen-set, so no path hits.
* `visited`: the plain traversal; each node it marks is marked once, and reached (`reach_of_mem_visited`).
-/

namespace ADT.Search

variable {σ κ : Type}

/-- `xs.some visit`, the seen-set handed along, stopping at the first hit. -/
def anyFrom (visit : List κ → σ → Bool × List κ) : List κ → List σ → Bool × List κ
  | seen, [] => (false, seen)
  | seen, x :: xs =>
    match visit seen x with
    | (true, seen') => (true, seen')
    | (false, seen') => anyFrom visit seen' xs

/-- The search; the newest seen key comes first. -/
def search [DecidableEq κ] (pre : σ → Option Bool) (post : σ → Bool) (key : σ → κ) (succ : σ → List σ) :
    ℕ → List κ → σ → Bool × List κ
  | 0, seen, _ => (false, seen)
  | fuel + 1, seen, x =>
    match pre x with
    | some b => (b, seen)
    | none =>
      if key x ∈ seen then (false, seen)
      else if post x then (true, key x :: seen)
      else anyFrom (search pre post key succ fuel) (key x :: seen) (succ x)

section Sound

variable (pre : σ → Option Bool) (post : σ → Bool) (key : σ → κ) (succ : σ → List σ)

/-- The search goes on from `a` to its successor `b`. -/
def Move (a b : σ) : Prop := pre a = none ∧ post a = false ∧ b ∈ succ a

/-- The search answers yes at `a`. -/
def Hit (a : σ) : Prop := pre a = some true ∨ (pre a = none ∧ post a = true)

variable {pre post key succ}

theorem anyFrom_hit {visit : List κ → σ → Bool × List κ} :
    ∀ (xs : List σ) (seen : List κ), (anyFrom visit seen xs).1 = true →
      ∃ x ∈ xs, ∃ seen', (visit seen' x).1 = true
  | [], _, h => by simp [anyFrom] at h
  | x :: xs, seen, h => by
    unfold anyFrom at h
    split at h
    · rename_i s' he
      exact ⟨x, by simp, seen, by rw [he]⟩
    · obtain ⟨y, hy, s, hs⟩ := anyFrom_hit xs _ h
      exact ⟨y, by simp [hy], s, hs⟩

theorem search_sound [DecidableEq κ] : ∀ (fuel : ℕ) (seen : List κ) (x : σ),
    (search pre post key succ fuel seen x).1 = true →
      ∃ y, Relation.ReflTransGen (Move pre post succ) x y ∧ Hit pre post y
  | 0, _, _, h => by simp [search] at h
  | fuel + 1, seen, x, h => by
    unfold search at h
    split at h
    · rename_i b hb
      simp only at h
      exact ⟨x, .refl, .inl (by rw [hb, h])⟩
    · rename_i hn
      split_ifs at h with hseen hpost
      · exact ⟨x, .refl, .inr ⟨hn, hpost⟩⟩
      · obtain ⟨z, hz, s, hs⟩ := anyFrom_hit _ _ h
        obtain ⟨y, hy, hhit⟩ := search_sound fuel s z hs
        exact ⟨y, .head ⟨hn, by simpa using hpost, hz⟩ hy, hhit⟩

theorem anyFrom_subset (visit : List κ → σ → Bool × List κ) {P : κ → Prop} :
    ∀ (xs : List σ) (seen : List κ),
      (∀ x ∈ xs, ∀ s, s ⊆ (visit s x).2 ∧ ∀ k ∈ (visit s x).2, k ∈ s ∨ P k) →
      seen ⊆ (anyFrom visit seen xs).2 ∧ ∀ k ∈ (anyFrom visit seen xs).2, k ∈ seen ∨ P k
  | [], seen, _ => ⟨fun _ h => h, fun _ h => .inl h⟩
  | x :: xs, seen, h => by
    obtain ⟨h1, h2⟩ := h x (by simp) seen
    unfold anyFrom
    split
    · rename_i s' he
      rw [he] at h1 h2
      exact ⟨h1, h2⟩
    · rename_i s' he
      rw [he] at h1 h2
      obtain ⟨i1, i2⟩ := anyFrom_subset visit xs s' (fun y hy => h y (by simp [hy]))
      refine ⟨fun k hk => i1 (h1 hk), fun k hk => ?_⟩
      rcases i2 k hk with hk | hk
      · exact h2 k hk
      · exact .inr hk

theorem search_seen [DecidableEq κ] : ∀ (fuel : ℕ) (seen : List κ) (x : σ),
    seen ⊆ (search pre post key succ fuel seen x).2 ∧
    ∀ k ∈ (search pre post key succ fuel seen x).2, k ∈ seen ∨
      ∃ y, key y = k ∧ pre y = none ∧ Relation.ReflTransGen (Move pre post succ) x y
  | 0, seen, x => ⟨fun _ h => h, fun _ h => .inl h⟩
  | fuel + 1, seen, x => by
    unfold search
    split
    · exact ⟨fun _ h => h, fun _ h => .inl h⟩
    · rename_i hn
      split_ifs with hseen hpost
      · exact ⟨fun _ h => h, fun _ h => .inl h⟩
      · refine ⟨fun _ h => by simp [h], fun k hk => ?_⟩
        rcases List.mem_cons.mp hk with rfl | hk
        · exact .inr ⟨x, rfl, hn, .refl⟩
        · exact .inl hk
      · have hstep := anyFrom_subset (search pre post key succ fuel)
          (P := fun k => ∃ y, key y = k ∧ pre y = none ∧ Relation.ReflTransGen (Move pre post succ) x y)
          (succ x) (key x :: seen) (fun z hz s => by
            obtain ⟨i1, i2⟩ := search_seen fuel s z
            refine ⟨i1, fun k hk => (i2 k hk).imp_right ?_⟩
            rintro ⟨y, hy, hyn, hp⟩
            exact ⟨y, hy, hyn, .head ⟨hn, by simpa using hpost, hz⟩ hp⟩)
        refine ⟨fun k hk => hstep.1 (by simp [hk]), fun k hk => ?_⟩
        rcases hstep.2 k hk with hk | hk
        · rcases List.mem_cons.mp hk with rfl | hk
          · exact .inr ⟨x, rfl, hn, .refl⟩
          · exact .inl hk
        · exact .inr hk

theorem anyFrom_nodup {visit : List κ → σ → Bool × List κ} :
    ∀ (xs : List σ) (seen : List κ), (∀ x ∈ xs, ∀ s, s.Nodup → (visit s x).2.Nodup) →
      seen.Nodup → (anyFrom visit seen xs).2.Nodup
  | [], _, _, h => h
  | x :: xs, seen, hv, h => by
    have h1 := hv x (by simp) seen h
    unfold anyFrom
    split
    · rename_i s' he; rw [he] at h1; exact h1
    · rename_i s' he
      rw [he] at h1
      exact anyFrom_nodup xs s' (fun y hy => hv y (by simp [hy])) h1

theorem search_nodup [DecidableEq κ] : ∀ (fuel : ℕ) (seen : List κ) (x : σ), seen.Nodup →
    (search pre post key succ fuel seen x).2.Nodup
  | 0, _, _, h => h
  | fuel + 1, seen, x, h => by
    unfold search
    split
    · exact h
    · split_ifs with hseen hpost
      · exact h
      · exact List.nodup_cons.mpr ⟨hseen, h⟩
      · exact anyFrom_nodup _ _ (fun z _ s hs => search_nodup fuel s z hs)
          (List.nodup_cons.mpr ⟨hseen, h⟩)

end Sound

/-! ### Completeness: the nodes are their own keys -/

section Complete

variable {pre : κ → Option Bool} {post : κ → Bool} {succ : κ → List κ} {U : List κ}

/-- More fuel than unseen members of the universe. -/
def Enough [DecidableEq κ] (U seen : List κ) (fuel : ℕ) : Prop := (U.filter (· ∉ seen)).length < fuel

theorem Enough.mono [DecidableEq κ] {seen seen' : List κ} {fuel : ℕ} (h : Enough U seen fuel)
    (hs : seen ⊆ seen') : Enough U seen' fuel := by
  refine lt_of_le_of_lt (List.Sublist.length_le ?_) h
  refine List.monotone_filter_right _ fun k hk => ?_
  simp only [decide_eq_true_eq] at hk ⊢
  exact fun h => hk (hs h)

theorem Enough.cons [DecidableEq κ] {seen : List κ} {fuel : ℕ} {x : κ} (h : Enough U seen (fuel + 1)) (hx : x ∈ U)
    (hs : x ∉ seen) : Enough U (x :: seen) fuel := by
  unfold Enough at h ⊢
  have hlt : (U.filter (· ∉ x :: seen)).length < (U.filter (· ∉ seen)).length := by
    have hsub : (U.filter (· ∉ x :: seen)).Sublist (U.filter (· ∉ seen)) := by
      refine List.monotone_filter_right _ fun k hk => ?_
      simp only [List.mem_cons, not_or, decide_eq_true_eq] at hk ⊢
      exact hk.2
    refine lt_of_le_of_ne hsub.length_le fun he => ?_
    have hmem : x ∈ U.filter (· ∉ x :: seen) := by
      rw [hsub.length_eq.mp he]; simpa using ⟨hx, hs⟩
    simp at hmem
  omega

/-- A node the search has dealt with: refused by `pre`, or marked. -/
def Done (pre : κ → Option Bool) (S : List κ) (z : κ) : Prop :=
  pre z = some false ∨ (pre z = none ∧ z ∈ S)

theorem Done.mono {S S' : List κ} {z : κ} (h : Done pre S z) (hs : S ⊆ S') : Done pre S' z :=
  h.imp_right fun ⟨h1, h2⟩ => ⟨h1, hs h2⟩

/-- Every key of `S` outside `seen` is no hit, and its successors are dealt with. -/
def ClosedFrom (pre : κ → Option Bool) (post : κ → Bool) (succ : κ → List κ) (seen S : List κ) :
    Prop :=
  ∀ y ∈ S, y ∉ seen → post y = false ∧ ∀ z ∈ succ y, Done pre S z

theorem ClosedFrom.trans {seen S S' : List κ} (h1 : ClosedFrom pre post succ seen S)
    (h2 : ClosedFrom pre post succ S S') (hs : S ⊆ S') : ClosedFrom pre post succ seen S' := by
  intro y hy hn
  by_cases hyS : y ∈ S
  · obtain ⟨a, b⟩ := h1 y hyS hn
    exact ⟨a, fun z hz => (b z hz).mono hs⟩
  · exact h2 y hy hyS

theorem anyFrom_miss [DecidableEq κ] {visit : List κ → κ → Bool × List κ} {fuel : ℕ}
    (hv : ∀ s x, x ∈ U → Enough U s fuel → (visit s x).1 = false →
      Done pre (visit s x).2 x ∧ s ⊆ (visit s x).2 ∧ ClosedFrom pre post succ s (visit s x).2) :
    ∀ (xs : List κ) (seen : List κ), (∀ x ∈ xs, x ∈ U) → Enough U seen fuel →
      (anyFrom visit seen xs).1 = false →
      (∀ x ∈ xs, Done pre (anyFrom visit seen xs).2 x) ∧ seen ⊆ (anyFrom visit seen xs).2 ∧
        ClosedFrom pre post succ seen (anyFrom visit seen xs).2
  | [], seen, _, _, _ =>
    ⟨by simp, fun _ h => h, fun _ hy hn => absurd hy hn⟩
  | x :: xs, seen, hU, hf, h => by
    unfold anyFrom at h ⊢
    split at h
    · simp at h
    · rename_i s' he
      obtain ⟨a1, a2, a3⟩ := hv seen x (hU x (by simp)) hf (by rw [he])
      rw [he] at a1 a2 a3
      obtain ⟨b1, b2, b3⟩ := anyFrom_miss hv xs s' (fun y hy => hU y (by simp [hy]))
        (hf.mono a2) h
      refine ⟨fun y hy => ?_, fun k hk => b2 (a2 hk), a3.trans b3 b2⟩
      rcases List.mem_cons.mp hy with rfl | hy
      · exact a1.mono b2
      · exact b1 y hy

theorem search_miss [DecidableEq κ] (pre : κ → Option Bool) (post : κ → Bool)
    (hsucc : ∀ x ∈ U, ∀ z ∈ succ x, z ∈ U) : ∀ (fuel : ℕ) (seen : List κ) (x : κ), x ∈ U → Enough U seen fuel →
    (search pre post (fun k => k) succ fuel seen x).1 = false →
      Done pre (search pre post (fun k => k) succ fuel seen x).2 x ∧
      seen ⊆ (search pre post (fun k => k) succ fuel seen x).2 ∧
      ClosedFrom pre post succ seen (search pre post (fun k => k) succ fuel seen x).2
  | 0, _, _, _, hf, _ => absurd hf (by simp [Enough])
  | fuel + 1, seen, x, hx, hf, h => by
    unfold search at h ⊢
    split at h
    · rename_i b hb
      simp only at h
      exact ⟨.inl (by rw [hb, h]), fun _ h => h, fun _ hy hn => absurd hy hn⟩
    · rename_i hn
      split_ifs at h ⊢ with hseen hpost
      · exact ⟨.inr ⟨hn, hseen⟩, fun _ h => h, fun _ hy hn => absurd hy hn⟩
      · obtain ⟨b1, b2, b3⟩ := anyFrom_miss
          (fun s y hy hs hm => search_miss pre post hsucc fuel s y hy hs hm) (succ x) (x :: seen)
          (fun z hz => hsucc x hx z hz) (hf.cons hx hseen) h
        refine ⟨.inr ⟨hn, b2 (by simp)⟩, fun k hk => b2 (by simp [hk]), fun y hy hys => ?_⟩
        by_cases hyx : y = x
        · subst hyx
          exact ⟨by simpa using hpost, b1⟩
        · exact b3 y hy (by simp [hyx, hys])

/-- **The search decides**: with enough fuel it hits exactly when some path does. -/
theorem search_iff [DecidableEq κ] (hsucc : ∀ x ∈ U, ∀ z ∈ succ x, z ∈ U) {fuel : ℕ} {x : κ} (hx : x ∈ U)
    (hf : U.length < fuel) :
    (search pre post (fun k => k) succ fuel [] x).1 = true ↔
      ∃ y, Relation.ReflTransGen (Move pre post succ) x y ∧ Hit pre post y := by
  refine ⟨search_sound fuel [] x, ?_⟩
  rintro ⟨y, hp, hy⟩
  by_contra hm
  obtain ⟨h1, -, h3⟩ := search_miss pre post hsucc fuel [] x hx
    (by simpa [Enough] using hf) (by simpa using hm)
  have hdone : Done pre (search pre post (fun k => k) succ fuel [] x).2 y := by
    clear hy
    induction hp with
    | refl => exact h1
    | tail _ hmv ih =>
      obtain ⟨m1, -, m3⟩ := hmv
      rcases ih with hf | ⟨-, hmem⟩
      · rw [m1] at hf; cases hf
      · exact (h3 _ hmem (by simp)).2 _ m3
  rcases hdone with hd | ⟨hd, hmem⟩
  · rcases hy with hy | hy
    · rw [hd] at hy; cases hy
    · rw [hd] at hy; cases hy.1
  · rcases hy with hy | hy
    · rw [hd] at hy; cases hy
    · rw [(h3 y hmem (by simp)).1] at hy; cases hy.2

end Complete

/-! ### Plain traversal -/

section Visited

variable (succ : κ → List κ)

/-- The nodes a traversal from `x` marks, in the order it marks them. -/
def visited [DecidableEq κ] (fuel : ℕ) (x : κ) : List κ :=
  (search (fun _ => none) (fun _ => false) (fun k => k) succ fuel [] x).2.reverse

/-- The edge relation of `succ`. -/
def Edge (a b : κ) : Prop := b ∈ succ a

instance [DecidableEq κ] (a b : κ) : Decidable (Edge succ a b) := inferInstanceAs (Decidable (b ∈ succ a))

variable {succ}

theorem move_none_iff {a b : κ} :
    Move (fun _ : κ => none) (fun _ => false) succ a b ↔ Edge succ a b :=
  ⟨fun h => h.2.2, fun h => ⟨rfl, rfl, h⟩⟩

theorem visited_nodup [DecidableEq κ] (fuel : ℕ) (x : κ) : (visited succ fuel x).Nodup :=
  List.nodup_reverse.mpr (search_nodup fuel [] x List.nodup_nil)

theorem reach_of_mem_visited [DecidableEq κ] {fuel : ℕ} {x y : κ} (h : y ∈ visited succ fuel x) :
    Relation.ReflTransGen (Edge succ) x y := by
  rcases (search_seen fuel [] x).2 y (List.mem_reverse.mp h) with h | ⟨z, rfl, -, hp⟩
  · simp at h
  · exact Relation.ReflTransGen.mono (fun _ _ hm => move_none_iff.mp hm) _ _ hp

theorem search_target_iff [DecidableEq κ] {U : List κ} (hsucc : ∀ x ∈ U, ∀ z ∈ succ x, z ∈ U) {fuel : ℕ} {x t : κ}
    (hx : x ∈ U) (hf : U.length < fuel) :
    (search (fun k => if k == t then some true else none) (fun _ => false) (fun k => k) succ fuel [] x).1 = true ↔
      Relation.ReflTransGen (Edge succ) x t := by
  rw [search_iff hsucc hx hf]
  constructor
  · rintro ⟨y, hp, hy⟩
    have hyt : y = t := by
      rcases hy with hy | hy
      · by_contra hne
        simp [hne] at hy
      · cases hy.2
    rw [← hyt]
    exact Relation.ReflTransGen.mono (fun _ _ hm => hm.2.2) _ _ hp
  · intro hp
    clear hx
    induction hp using Relation.ReflTransGen.head_induction_on with
    | refl => exact ⟨t, .refl, .inl (by simp)⟩
    | @head a b hab _ ih =>
      by_cases hat : a = t
      · exact ⟨a, .refl, .inl (by simp [hat])⟩
      · obtain ⟨y, hby, hy⟩ := ih
        exact ⟨y, .head ⟨by simp [hat], rfl, hab⟩ hby, hy⟩

end Visited

end ADT.Search
