import Mathlib.Tactic
import Mathlib.Logic.Relation
import Mathlib.Data.List.Nodup
import Mathlib.Data.List.AList

/-!
# Lib.Basics — hexadecimal digits, and small facts about lists, tables and failing computations
-/

namespace ADT

def hexDigit (c : Char) : Option ℕ :=
  if '0' ≤ c ∧ c ≤ '9' then some (c.toNat - 48)
  else if 'a' ≤ c ∧ c ≤ 'f' then some (c.toNat - 87)
  else if 'A' ≤ c ∧ c ≤ 'F' then some (c.toNat - 55)
  else none

def isLowerHex (c : Char) : Bool := c.isDigit || ('a' ≤ c && c ≤ 'f')

def isHexDigit (c : Char) : Bool := isLowerHex c || ('A' ≤ c && c ≤ 'F')

variable {α : Type} {a : α} {l : List α}

theorem except_bind_ok {ε β : Type} {x : Except ε α} {f : α → Except ε β} {b : β} :
    (x >>= f) = .ok b ↔ ∃ a, x = .ok a ∧ f a = .ok b := by
  cases x with
  | error e => exact ⟨fun h => (by cases h), fun ⟨_, h, _⟩ => (by cases h)⟩
  | ok a => exact ⟨fun h => ⟨a, rfl, h⟩, fun ⟨_, h, h'⟩ => (by cases h; exact h')⟩

theorem except_bind_error {ε β : Type} {x : Except ε α} {f : α → Except ε β} {e : ε} :
    (x >>= f) = .error e ↔ x = .error e ∨ ∃ a, x = .ok a ∧ f a = .error e := by
  cases x with
  | error e' => exact ⟨fun h => .inl (by cases h; rfl), fun h => (by
      rcases h with h | ⟨_, h, _⟩
      · cases h; rfl
      · cases h)⟩
  | ok a => exact ⟨fun h => .inr ⟨a, rfl, h⟩, fun h => (by
      rcases h with h | ⟨_, h, h'⟩
      · cases h
      · cases h; exact h')⟩

theorem except_map_ok {ε β : Type} {x : Except ε α} {f : α → β} {b : β} :
    x.map f = .ok b ↔ ∃ a, x = .ok a ∧ f a = b := by
  cases x with
  | error e => exact ⟨fun h => (by cases h), fun ⟨_, h, _⟩ => (by cases h)⟩
  | ok a => exact ⟨fun h => ⟨a, rfl, Except.ok.inj h⟩, fun ⟨_, h, h'⟩ => (by cases h; rw [← h']; rfl)⟩

theorem of_ite_error {ε : Type} {c : Prop} [Decidable c] {e : ε} {x : Except ε α}
    (h : (if c then .error e else x) = .ok a) : ¬c ∧ x = .ok a := by
  by_cases hc : c
  · rw [if_pos hc] at h
    cases h
  · rw [if_neg hc] at h
    exact ⟨hc, h⟩

theorem mapM_ok {ε α β : Type} {f : α → Except ε β} : ∀ {xs : List α} {ys : List β}, xs.mapM f = .ok ys →
    List.Forall₂ (fun x y => f x = .ok y) xs ys
  | [], ys, h => by
    rw [List.mapM_nil] at h
    cases h
    exact .nil
  | x :: xs, ys, h => by
    rw [List.mapM_cons] at h
    obtain ⟨y, hy, h⟩ := except_bind_ok.mp h
    obtain ⟨zs, hzs, h⟩ := except_bind_ok.mp h
    cases h
    exact .cons hy (mapM_ok hzs)

section State

variable {σ ε α β : Type} {s s' : σ}
variable {f : α → StateT σ (Except ε) β}

theorem stateT_bind_ok {x : StateT σ (Except ε) α} {b : β} :
    (x >>= f) s = .ok (b, s') ↔ ∃ a s₁, x s = .ok (a, s₁) ∧ f a s₁ = .ok (b, s') := by
  refine except_bind_ok.trans ⟨fun ⟨p, hx, hf⟩ => ⟨p.1, p.2, hx, hf⟩, fun ⟨a, s₁, hx, hf⟩ => ⟨(a, s₁), hx, hf⟩⟩

theorem stateT_lift_bind_ok {x : Except ε α} {b : β} :
    ((liftM x : StateT σ (Except ε) α) >>= f) s = .ok (b, s') ↔ ∃ a, x = .ok a ∧ f a s = .ok (b, s') := by
  cases x with
  | error e => exact ⟨fun h => (by cases h), fun ⟨_, h, _⟩ => (by cases h)⟩
  | ok a => exact ⟨fun h => ⟨a, rfl, h⟩, fun ⟨_, h, h'⟩ => (by cases h; exact h')⟩

theorem stateT_mapM_ok {f : α → StateT σ (Except ε) β} {I : σ → Prop}
    (hI : ∀ x s y s', I s → f x s = .ok (y, s') → I s') : ∀ {xs : List α} {ys : List β} {s : σ}, I s →
    xs.mapM f s = .ok (ys, s') → I s' ∧ List.Forall₂ (fun x y => ∃ s₁ s₂, I s₁ ∧ f x s₁ = .ok (y, s₂)) xs ys
  | [], ys, s, hs, h => by
    rw [List.mapM_nil] at h
    cases h
    exact ⟨hs, .nil⟩
  | x :: xs, ys, s, hs, h => by
    rw [List.mapM_cons] at h
    obtain ⟨y, s₁, hy, h⟩ := stateT_bind_ok.mp h
    obtain ⟨zs, s₂, hzs, h⟩ := stateT_bind_ok.mp h
    cases h
    obtain ⟨hs', hall⟩ := stateT_mapM_ok hI (hI x s y s₁ hs hy) hzs
    exact ⟨hs', .cons ⟨s, s₁, hs, hy⟩ hall⟩

end State

/-! ### Lists -/

theorem exists_of_forall₂_left {β : Type} {R : α → β → Prop} {xs : List α} {ys : List β}
    (h : List.Forall₂ R xs ys) (ha : a ∈ xs) : ∃ b ∈ ys, R a b := by
  induction h with
  | nil => simp at ha
  | cons hr _ ih =>
    rcases List.mem_cons.mp ha with rfl | ha
    · exact ⟨_, by simp, hr⟩
    · obtain ⟨b, hb, hab⟩ := ih ha
      exact ⟨b, by simp [hb], hab⟩

theorem exists_of_forall₂_right {β : Type} {R : α → β → Prop} {xs : List α} {ys : List β}
    (h : List.Forall₂ R xs ys) {b : β} (hb : b ∈ ys) : ∃ a ∈ xs, R a b := by
  obtain ⟨a, ha, hab⟩ := exists_of_forall₂_left h.flip hb
  exact ⟨a, ha, hab⟩

theorem eq_singleton_of_nodup (hnd : l.Nodup) (h : ∀ x, x ∈ l ↔ x = a) : l = [a] := by
  match l with
  | [] => exact absurd ((h a).mpr rfl) (by simp)
  | [x] => rw [(h x).mp (by simp)]
  | x :: y :: l =>
    have hxy : x = y := ((h x).mp (by simp)).trans ((h y).mp (by simp)).symm
    simp [hxy] at hnd

theorem eq_of_mem_flatMap {β : Type} {f : α → List β} (h : (l.flatMap f).Nodup) {b : α} (ha : a ∈ l)
    (hb : b ∈ l) {x : β} (hxa : x ∈ f a) (hxb : x ∈ f b) : a = b := by
  have hsymm : Std.Symm (Function.onFun List.Disjoint f) := ⟨fun _ _ h => h.symm⟩
  by_contra hne
  exact (List.nodup_flatMap.mp h).2.forall ha hb hne hxa hxb

theorem mem_unique_of_length {b : α} (h : l.length = 1) (ha : a ∈ l) (hb : b ∈ l) : a = b := by
  obtain ⟨c, rfl⟩ := List.length_eq_one_iff.mp h
  rw [List.mem_singleton.mp ha, List.mem_singleton.mp hb]

theorem nodup_eraseDups [DecidableEq α] (l : List α) : l.eraseDups.Nodup := by
  induction h : l.length using Nat.strongRecOn generalizing l with
  | ind n ih =>
    rcases l with _ | ⟨a, l⟩
    · exact List.nodup_nil
    · rw [List.eraseDups_cons, List.nodup_cons, List.mem_eraseDups]
      refine ⟨fun ha => ?_, ?_⟩
      · have hne := (List.mem_filter.mp ha).2
        simp at hne
      · have hle := List.length_filter_le (fun b => !(b == a)) l
        rw [List.length_cons] at h
        exact ih _ (by omega) _ rfl

theorem eraseDups_of_nodup {α : Type} [DecidableEq α] : ∀ {l : List α}, l.Nodup → l.eraseDups = l
  | [], _ => rfl
  | a :: l, h => by
    obtain ⟨ha, hl⟩ := List.nodup_cons.mp h
    have hf : l.filter (fun b => !b == a) = l := List.filter_eq_self.mpr fun b hb => by
      simpa using fun hba : b = a => ha (hba ▸ hb)
    rw [List.eraseDups_cons, hf, eraseDups_of_nodup hl]

/-- The entries of a table that meet a condition. -/
def restrict {α : Type} {β : α → Type} (p : Sigma β → Bool) (t : AList β) : AList β :=
  ⟨t.entries.filter p, List.NodupKeys.sublist List.filter_sublist t.nodupKeys⟩

@[simp] theorem lookup_restrict [DecidableEq α] {β : α → Type} (p : Sigma β → Bool) (t : AList β) (a : α) :
    (restrict p t).lookup a = (t.lookup a).filter fun b => p ⟨a, b⟩ := by
  ext b
  rw [← Option.mem_def, ← Option.mem_def, AList.mem_lookup_iff, Option.mem_filter_iff, AList.mem_lookup_iff]
  exact List.mem_filter

end ADT
