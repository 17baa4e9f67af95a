import Mathlib.Combinatorics.SimpleGraph.Acyclic
import Labyrinth.Proofs.Level.Passages

/-!
# The graph of the free cells

Free cells that are next to each other are joined. A cell made free with just one free
neighbour hangs on the others like a leaf: no cycle arises (`HangsOn.isAcyclic`), paths stay
paths, and every cell on a simple path to the neighbour is on one to the leaf (`Above.leaf`).
-/

namespace Labyrinth

/-- Two cells are next to each other. -/
def Position.Beside (p q : Position) : Prop := ∃ d : Direction, p.step d = q

theorem Position.beside_step (p : Position) (d : Direction) : p.Beside (p.step d) := ⟨d, rfl⟩

/-- Every direction has one that leads back. -/
theorem Position.exists_step_back (d : Direction) :
    ∃ e : Direction, ∀ p : Position, (p.step d).step e = p := by
  cases d with
  | up => exact ⟨.down, fun p => by simp [step, offset, Direction.delta]⟩
  | down => exact ⟨.up, fun p => by simp [step, offset, Direction.delta]⟩
  | left => exact ⟨.right, fun p => by simp [step, offset, Direction.delta]⟩
  | right => exact ⟨.left, fun p => by simp [step, offset, Direction.delta]⟩

theorem Position.Beside.symm {p q : Position} (h : p.Beside q) : q.Beside p := by
  obtain ⟨d, rfl⟩ := h
  obtain ⟨e, hback⟩ := exists_step_back d
  exact ⟨e, hback p⟩

theorem Position.Beside.ne {p q : Position} (h : p.Beside q) : p ≠ q := by
  obtain ⟨d, rfl⟩ := h
  obtain ⟨x, y⟩ := p
  cases d <;> simp [step, offset, Direction.delta, Position.mk.injEq]

/-- The graph of the free cells: those next to each other are joined. -/
def cellGraph (free : Position → Prop) : SimpleGraph Position where
  Adj p q := free p ∧ free q ∧ p.Beside q
  symm := ⟨fun _ _ ⟨hp, hq, h⟩ => ⟨hq, hp, h.symm⟩⟩
  loopless := ⟨fun _ ⟨_, _, h⟩ => h.ne rfl⟩

variable {free free' : Position → Prop} {p q r x root : Position}

theorem cellGraph_adj : (cellGraph free).Adj p q ↔ free p ∧ free q ∧ p.Beside q := Iff.rfl

/-- More free cells are joined more. -/
theorem cellGraph_mono (h : ∀ r, free r → free' r) : cellGraph free ≤ cellGraph free' :=
  fun _ _ ⟨hp, hq, hbeside⟩ => ⟨h _ hp, h _ hq, hbeside⟩

/-- What is reached over free cells is reached in their graph. -/
theorem Reaches.reachable (h : Reaches free p q) : free q ∧ (cellGraph free).Reachable p q := by
  induction h with
  | here hfree => exact ⟨hfree, .refl p⟩
  | move d _ hfree ih =>
    have hadj : (cellGraph free).Adj _ _ := ⟨ih.1, hfree, Position.beside_step _ d⟩
    exact ⟨hfree, ih.2.trans hadj.reachable⟩

/-- A walk that begins on a free cell stays on free cells. -/
theorem free_of_mem_support (w : (cellGraph free).Walk p q) (hp : free p) (hr : r ∈ w.support) :
    free r := by
  induction w with
  | nil => simp_all
  | cons hadj w ih =>
    rcases List.mem_cons.mp (SimpleGraph.Walk.support_cons hadj w ▸ hr) with rfl | hr
    · exact hp
    · exact ih hadj.2.1 hr

/-- A cell is about to be made free, with one free neighbour. -/
structure HangsOn (free : Position → Prop) (x r : Position) : Prop where
  /-- It is not free yet. -/
  closed : ¬ free x
  /-- The neighbour is free. -/
  standing : free r
  /-- They are next to each other. -/
  beside : r.Beside x
  /-- No other neighbour is free. -/
  only : ∀ q, free q → x.Beside q → q = r

namespace HangsOn

/-- The graph gets one more edge. -/
theorem cellGraph_eq (h : HangsOn free x r) :
    cellGraph (fun q => q = x ∨ free q) = cellGraph free ⊔ SimpleGraph.edge r x := by
  ext a b
  rw [SimpleGraph.sup_adj, SimpleGraph.edge_adj, cellGraph_adj, cellGraph_adj]
  constructor
  · rintro ⟨rfl | ha, rfl | hb, hab⟩
    · exact absurd rfl hab.ne
    · exact .inr ⟨.inr ⟨rfl, h.only b hb hab⟩, hab.ne⟩
    · exact .inr ⟨.inl ⟨h.only a ha hab.symm, rfl⟩, hab.ne⟩
    · exact .inl ⟨ha, hb, hab⟩
  · rintro (⟨ha, hb, hab⟩ | ⟨⟨rfl, rfl⟩ | ⟨rfl, rfl⟩, -⟩)
    · exact ⟨.inr ha, .inr hb, hab⟩
    · exact ⟨.inr h.standing, .inl rfl, h.beside⟩
    · exact ⟨.inl rfl, .inr h.standing, h.beside.symm⟩

/-- A leaf closes no cycle. -/
theorem isAcyclic (h : HangsOn free x r) (hacyclic : (cellGraph free).IsAcyclic) :
    (cellGraph fun q => q = x ∨ free q).IsAcyclic := by
  rw [h.cellGraph_eq]
  refine hacyclic.sup_edge_of_not_reachable ?_
  rintro ⟨w⟩
  exact h.closed (free_of_mem_support w h.standing w.end_mem_support)

end HangsOn

/-- A cell lies on a simple path from the root to another. -/
def Above (free : Position → Prop) (root p q : Position) : Prop :=
  ∃ w : (cellGraph free).Walk root q, w.IsPath ∧ p ∈ w.support

/-- What is reached from the root lies above itself. -/
theorem above_self (h : (cellGraph free).Reachable root p) : Above free root p p := by
  obtain ⟨w, hw⟩ := h.exists_isPath
  exact ⟨w, hw, w.end_mem_support⟩

/-- Paths stay paths when more cells are free. -/
theorem Above.mono (h : Above free root p q) (hmore : ∀ r, free r → free' r) :
    Above free' root p q := by
  obtain ⟨w, hw, hp⟩ := h
  refine ⟨w.mapLe (cellGraph_mono hmore), hw.mapLe _, ?_⟩
  rwa [SimpleGraph.Walk.support_mapLe_eq_support]

/-- What lies above the neighbour of a leaf lies above the leaf. -/
theorem Above.leaf (h : Above free root p r) (hroot : free root) (hx : HangsOn free x r) :
    Above (fun q => q = x ∨ free q) root p x := by
  obtain ⟨w, hw, hp⟩ := h
  have hmore : ∀ q, free q → q = x ∨ free q := fun _ => .inr
  have hadj : (cellGraph fun q => q = x ∨ free q).Adj r x := ⟨.inr hx.standing, .inl rfl, hx.beside⟩
  have hnew : x ∉ (w.mapLe (cellGraph_mono hmore)).support := by
    rw [SimpleGraph.Walk.support_mapLe_eq_support]
    exact fun hmem => hx.closed (free_of_mem_support w hroot hmem)
  refine ⟨_, (hw.mapLe _).concat hnew hadj, ?_⟩
  refine SimpleGraph.Walk.support_subset_support_concat _ _ ?_
  rwa [SimpleGraph.Walk.support_mapLe_eq_support]

/-- Without cycles, what lies above a cell lies above all that this cell lies above. -/
theorem Above.trans (h : Above free root p q) (h' : Above free root q r)
    (hacyclic : (cellGraph free).IsAcyclic) : Above free root p r := by
  obtain ⟨v, hv, hp⟩ := h
  obtain ⟨w, hw, hq⟩ := h'
  have hsame : w.takeUntil q hq = v :=
    Subtype.mk.inj ((hacyclic.subsingleton_path root q).elim ⟨_, hw.takeUntil hq⟩ ⟨v, hv⟩)
  rw [← hsame] at hp
  exact ⟨w, hw, w.support_takeUntil_subset_support hq hp⟩

/-- Without cycles, only one neighbour of the root lies above a cell. -/
theorem Above.eq_of_adj (h : Above free root p r) (h' : Above free root q r)
    (hacyclic : (cellGraph free).IsAcyclic) (hp : (cellGraph free).Adj root p)
    (hq : (cellGraph free).Adj root q) : p = q := by
  obtain ⟨w, hw, hpw⟩ := h
  obtain ⟨v, hv, hqv⟩ := h'
  have hsame : v = w := Subtype.mk.inj ((hacyclic.subsingleton_path root r).elim ⟨v, hv⟩ ⟨w, hw⟩)
  rw [hsame] at hqv
  rw [hacyclic.eq_snd_of_adj_start hw hp hpw, hacyclic.eq_snd_of_adj_start hw hq hqv]

/-- Without cycles, only the root, a neighbour of it and the cell itself lie above a cell next to
that neighbour. -/
theorem Above.of_adj_adj (h : Above free root p r) (hacyclic : (cellGraph free).IsAcyclic)
    (hq : (cellGraph free).Adj root q) (hr : (cellGraph free).Adj q r) (hne : root ≠ r) :
    p = root ∨ p = q ∨ p = r := by
  obtain ⟨w, hw, hp⟩ := h
  have hpath : (SimpleGraph.Walk.cons hq (.cons hr .nil)).IsPath := by
    simp [SimpleGraph.Walk.cons_isPath_iff, hq.ne, hr.ne, hne]
  have hsame := Subtype.mk.inj ((hacyclic.subsingleton_path root r).elim ⟨w, hw⟩ ⟨_, hpath⟩)
  rw [hsame] at hp
  simpa using hp

end Labyrinth
