import Mathlib.Data.Set.Basic
import Mathlib.Logic.Relation

/-!
# Lib.Substitution — graphs in place of nodes

A piece is a graph with a way in and a way out.  Substituting a piece for every node of a piece gives a piece
again: an edge between two nodes becomes one from the exit of the first piece to the entry of the second.  A
sound piece has no other loose ends than its entry and its exit, and substitution keeps pieces sound.
-/

namespace ADT.Substitution

open Relation

/-- A graph with an entry and an exit. -/
@[ext]
structure Piece (α : Type) where
  nodes : Set α
  edge : α → α → Prop
  entry : α
  exit : α

namespace Piece

variable {α β : Type}

/-- Nothing but the entry lacks an edge in, nothing but the exit lacks an edge out, and one leads to the other. -/
structure Sound (P : Piece α) : Prop where
  entry_mem : P.entry ∈ P.nodes
  exit_mem : P.exit ∈ P.nodes
  within : ∀ {x y}, P.edge x y → x ∈ P.nodes ∧ y ∈ P.nodes
  eq_entry : ∀ x ∈ P.nodes, (∀ y, ¬P.edge y x) → x = P.entry
  eq_exit : ∀ x ∈ P.nodes, (∀ y, ¬P.edge x y) → x = P.exit
  through : ReflTransGen P.edge P.entry P.exit

def single (x : α) : Piece α := ⟨{x}, fun _ _ => False, x, x⟩

theorem single_sound (x : α) : (single x).Sound where
  entry_mem := rfl
  exit_mem := rfl
  within h := h.elim
  eq_entry _ h _ := h
  eq_exit _ h _ := h
  through := .refl

/-- Put the piece `F a` in place of every node `a`. -/
def subst (P : Piece α) (F : α → Piece β) : Piece β where
  nodes := {x | ∃ a ∈ P.nodes, x ∈ (F a).nodes}
  edge x y := (∃ a ∈ P.nodes, (F a).edge x y) ∨ ∃ a b, P.edge a b ∧ (F a).exit = x ∧ (F b).entry = y
  entry := (F P.entry).entry
  exit := (F P.exit).exit

variable {P : Piece α} {F : α → Piece β}

theorem subst_of_inner {a : α} (ha : a ∈ P.nodes) {x y : β} (h : ReflTransGen (F a).edge x y) :
    ReflTransGen (P.subst F).edge x y :=
  ReflTransGen.mono (fun _ _ he => .inl ⟨a, ha, he⟩) _ _ h

/-- **Paths are lifted**: a path between nodes is one from the entry of the first to the exit of the last. -/
theorem subst_path (hP : P.Sound) (hF : ∀ a ∈ P.nodes, (F a).Sound) {a b : α} (ha : a ∈ P.nodes)
    (h : ReflTransGen P.edge a b) : ReflTransGen (P.subst F).edge (F a).entry (F b).exit := by
  induction h with
  | refl => exact subst_of_inner ha (hF a ha).through
  | @tail b c _ hbc ih =>
    have hc := (hP.within hbc).2
    have hcross : (P.subst F).edge (F b).exit (F c).entry := .inr ⟨b, c, hbc, rfl, rfl⟩
    exact (ih.tail hcross).trans (subst_of_inner hc (hF c hc).through)

/-- **Substitution keeps pieces sound.** -/
theorem subst_sound (hP : P.Sound) (hF : ∀ a ∈ P.nodes, (F a).Sound) : (P.subst F).Sound where
  entry_mem := ⟨P.entry, hP.entry_mem, (hF _ hP.entry_mem).entry_mem⟩
  exit_mem := ⟨P.exit, hP.exit_mem, (hF _ hP.exit_mem).exit_mem⟩
  within := by
    rintro x y (⟨a, ha, h⟩ | ⟨a, b, hab, rfl, rfl⟩)
    · exact ⟨⟨a, ha, ((hF a ha).within h).1⟩, a, ha, ((hF a ha).within h).2⟩
    · have hm := hP.within hab
      exact ⟨⟨a, hm.1, (hF a hm.1).exit_mem⟩, b, hm.2, (hF b hm.2).entry_mem⟩
  eq_entry := by
    rintro x ⟨a, ha, hx⟩ hno
    -- the node is the entry of its piece, and the piece stands for a node without an edge in
    have hentry : x = (F a).entry := (hF a ha).eq_entry x hx fun y h => hno y (.inl ⟨a, ha, h⟩)
    have hroot : a = P.entry := hP.eq_entry a ha fun b h => hno _ (.inr ⟨b, a, h, rfl, hentry.symm⟩)
    rw [hentry, hroot]
    rfl
  eq_exit := by
    rintro x ⟨a, ha, hx⟩ hno
    have hexit : x = (F a).exit := (hF a ha).eq_exit x hx fun y h => hno y (.inl ⟨a, ha, h⟩)
    have hsink : a = P.exit := hP.eq_exit a ha fun b h => hno _ (.inr ⟨a, b, h, hexit.symm, rfl⟩)
    rw [hexit, hsink]
    rfl
  through := subst_path hP hF hP.entry_mem hP.through

theorem subst_isolated (hP : P.Sound) (hF : ∀ a ∈ P.nodes, (F a).Sound)
    (hdisj : ∀ a ∈ P.nodes, ∀ b ∈ P.nodes, ∀ x, x ∈ (F a).nodes → x ∈ (F b).nodes → a = b)
    (houter : ∀ a, ¬P.edge a P.entry) (hinner : ∀ y, ¬(F P.entry).edge y (F P.entry).entry) (y : β) :
    ¬(P.subst F).edge y (P.subst F).entry := by
  have hin := (hF _ hP.entry_mem).entry_mem
  rintro (⟨a, ha, h⟩ | ⟨a, b, hab, -, hb⟩)
  · obtain rfl := hdisj a ha _ hP.entry_mem _ ((hF a ha).within h).2 hin
    exact hinner y h
  · have hbm := (hP.within hab).2
    have hmem : (P.subst F).entry ∈ (F b).nodes := hb ▸ (hF b hbm).entry_mem
    obtain rfl := hdisj b hbm _ hP.entry_mem _ hmem hin
    exact houter a hab

end Piece

end ADT.Substitution
