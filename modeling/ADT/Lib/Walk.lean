import Mathlib.Tactic
import Mathlib.Logic.Relation
import Mathlib.Data.List.Chain
import Mathlib.Data.List.Cycle

/-!
# Lib.Walk — walks and simple cycles of a relation

A walk can be cut down to one that repeats no node (`exists_simple_path`), so a walk that comes back to
its start holds a simple cycle (`exists_cycle`).  Seen from any of its nodes, a cycle is an edge and a
walk back (`cycle_step`).
-/

namespace ADT.Walk

variable {α : Type} {r : α → α → Prop}

theorem chain_from {x : α} : ∀ {l : List α}, x ∈ l → l.Nodup → l.IsChain r →
    ∃ l', (x :: l').Nodup ∧ (x :: l').IsChain r ∧ (x :: l') <:+ l
  | [], hx, _, _ => by simp at hx
  | y :: l, hx, hnd, hc => by
    by_cases hxy : x = y
    · subst hxy
      exact ⟨l, hnd, hc, List.suffix_rfl⟩
    · obtain ⟨l', h1, h2, h3⟩ := chain_from ((List.mem_cons.mp hx).resolve_left hxy) hnd.of_cons hc.tail
      exact ⟨l', h1, h2, h3.trans (List.suffix_cons y l)⟩

theorem exists_simple_path {a b : α} (h : Relation.ReflTransGen r a b) :
    ∃ l, (a :: l).Nodup ∧ (a :: l).IsChain r ∧ (a :: l).getLast (by simp) = b := by
  induction h using Relation.ReflTransGen.head_induction_on with
  | refl => exact ⟨[], by simp, .singleton _, rfl⟩
  | @head a c hac _ ih =>
    obtain ⟨l, hnd, hc, hlast⟩ := ih
    by_cases ha : a ∈ c :: l
    · -- the walk comes back to `a`: start it there
      obtain ⟨l', h1, h2, h3⟩ := chain_from ha hnd hc
      exact ⟨l', h1, h2, by rw [← hlast, h3.getLast (by simp)]⟩
    · exact ⟨c :: l, List.nodup_cons.mpr ⟨ha, hnd⟩, List.isChain_cons_cons.mpr ⟨hac, hc⟩, by
        rw [List.getLast_cons (by simp), hlast]⟩

theorem exists_cycle {a b : α} (h : Relation.ReflTransGen r a b) (hba : r b a) :
    ∃ c : Cycle α, c ≠ Cycle.nil ∧ c.Nodup ∧ c.Chain r := by
  obtain ⟨l, hnd, hc, hlast⟩ := exists_simple_path h
  refine ⟨(a :: l : List α), by simp, Cycle.nodup_coe_iff.mpr hnd, ?_⟩
  rw [Cycle.chain_coe_cons, ← List.cons_append, List.isChain_append]
  refine ⟨hc, .singleton a, ?_⟩
  intro x hx y hy
  rw [List.getLast?_eq_some_getLast (by simp), hlast] at hx
  cases hx
  cases hy
  exact hba

theorem cycle_step {p : α → Prop} {c : Cycle α} (hc : c.Chain r) (hp : ∀ x ∈ c, p x) {x : α} (hx : x ∈ c) :
    ∃ y ∈ c, r x y ∧ Relation.ReflTransGen (fun a b => r a b ∧ p a) y x := by
  induction c using Quotient.inductionOn' with
  | h l =>
    obtain ⟨l', hl'⟩ : ∃ l', l ~r (x :: l') := by
      obtain ⟨s, t, rfl⟩ := List.append_of_mem (show x ∈ l from hx)
      exact ⟨t ++ s, s.length, by simp [List.rotate_append_length_eq]⟩
    have hcoe : (Quotient.mk'' l : Cycle α) = ((x :: l' : List α) : Cycle α) := Quotient.sound' hl'
    rw [hcoe] at hc hp ⊢
    rw [Cycle.chain_coe_cons] at hc
    -- the walk `x, l', x` with its first edge taken off
    have hmem : ∀ z ∈ l' ++ [x], z ∈ ((x :: l' : List α) : Cycle α) := by simp [or_comm]
    obtain ⟨y, m, hm⟩ : ∃ y m, l' ++ [x] = y :: m := List.exists_cons_of_ne_nil (by simp)
    rw [hm] at hc hmem
    obtain ⟨hxy, htail⟩ := List.isChain_cons_cons.mp hc
    refine ⟨y, hmem y (by simp), hxy, ?_⟩
    have hlast : (y :: m).getLast (by simp) = x := by
      rw [← List.getLast_congr (by simp) (by simp) hm]; simp
    have hchain : (y :: m).IsChain fun a b => r a b ∧ p a :=
      htail.imp_of_mem_imp fun a b ha _ hab => ⟨hab, hp a (hmem a ha)⟩
    have := List.relationReflTransGen_of_exists_isChain (y :: m) hchain (by simp)
    rwa [hlast] at this

end ADT.Walk
