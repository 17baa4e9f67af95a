/-!
# Sets in the order of insertion

A set that lists its members in the order in which they were first put in. The view is
`toList`, which repeats nothing: `toList_insert` puts a new member last, `toList_insertAll`
says that of several members the first of each stays, and `toList_erase` keeps the order of
those that stay.
-/

namespace Labyrinth

/-- A set whose members are listed in the order of their first insertion. -/
structure OrderedSet (α : Type) where
  /-- The members, first inserted first. -/
  toList : List α
  /-- No member is listed twice. -/
  nodup : toList.Nodup

namespace OrderedSet

variable {α : Type} [DecidableEq α]

/-- The set with no members. -/
def empty : OrderedSet α := ⟨[], List.nodup_nil⟩

instance : Membership α (OrderedSet α) where
  mem s a := a ∈ s.toList

instance (a : α) (s : OrderedSet α) : Decidable (a ∈ s) :=
  inferInstanceAs (Decidable (a ∈ s.toList))

/-- The number of members. -/
def size (s : OrderedSet α) : Nat := s.toList.length

/-- Puts a member in, last if it is new. -/
def insert (s : OrderedSet α) (a : α) : OrderedSet α :=
  if h : a ∈ s.toList then s
  else
    ⟨s.toList ++ [a], List.nodup_append.mpr ⟨s.nodup, by simp, by
      rintro b hb c hc rfl
      exact h (List.mem_singleton.mp hc ▸ hb)⟩⟩

/-- Puts several members in, one after another. -/
def insertAll (s : OrderedSet α) (as : List α) : OrderedSet α := as.foldl insert s

/-- The set of the members of a list. -/
def ofList (as : List α) : OrderedSet α := empty.insertAll as

/-- Takes a member out, if it is there. -/
def erase (s : OrderedSet α) (a : α) : OrderedSet α :=
  ⟨s.toList.erase a, s.nodup.erase a⟩

/-- Whether two sets have the same members, in whatever order. -/
def sameMembers (s t : OrderedSet α) : Bool := s.size == t.size && s.toList.all (· ∈ t)

omit [DecidableEq α] in
theorem mem_def {a : α} {s : OrderedSet α} : a ∈ s ↔ a ∈ s.toList := Iff.rfl

omit [DecidableEq α] in
theorem not_mem_empty {a : α} : a ∉ (empty : OrderedSet α) := List.not_mem_nil

/-- A member that is new comes last; one that is there already changes nothing. -/
theorem toList_insert (s : OrderedSet α) (a : α) :
    (s.insert a).toList = if a ∈ s.toList then s.toList else s.toList ++ [a] := by
  unfold insert
  split <;> rfl

/-- A new member comes last. -/
theorem toList_insert_of_not_mem {s : OrderedSet α} {a : α} (h : a ∉ s) :
    (s.insert a).toList = s.toList ++ [a] :=
  (s.toList_insert a).trans (if_neg h)

/-- Taking a member out keeps the order of the others. -/
theorem toList_erase (s : OrderedSet α) (a : α) : (s.erase a).toList = s.toList.erase a := rfl

theorem mem_insert {s : OrderedSet α} {a b : α} : b ∈ s.insert a ↔ b ∈ s ∨ b = a := by
  rw [mem_def, toList_insert]
  split <;> rename_i h
  · exact ⟨Or.inl, fun o => o.elim id (fun e => e ▸ h)⟩
  · simp [mem_def]

theorem mem_insertAll {s : OrderedSet α} {as : List α} {b : α} :
    b ∈ s.insertAll as ↔ b ∈ s ∨ b ∈ as := by
  unfold insertAll
  induction as generalizing s with
  | nil => simp
  | cons a as ih => rw [List.foldl_cons, ih, mem_insert, List.mem_cons, or_assoc]

theorem mem_ofList {as : List α} {b : α} : b ∈ ofList as ↔ b ∈ as := by
  rw [ofList, mem_insertAll, or_iff_right not_mem_empty]

/-- A list that repeats nothing has no duplicates to erase. -/
theorem eraseDups_of_nodup {as : List α} (h : as.Nodup) : as.eraseDups = as := by
  induction as with
  | nil => rfl
  | cons a as ih =>
    obtain ⟨hnew, has⟩ := List.nodup_cons.mp h
    have hfilter : as.filter (fun b => !b == a) = as :=
      List.filter_eq_self.mpr fun b hb => by
        have hne : b ≠ a := fun heq => hnew (heq ▸ hb)
        simpa using hne
    rw [List.eraseDups_cons, hfilter, ih has]

/-- Members put in one after another are listed where they were first put in. -/
theorem toList_insertAll (s : OrderedSet α) (as : List α) :
    (s.insertAll as).toList = (s.toList ++ as).eraseDups := by
  induction as generalizing s with
  | nil =>
    rw [List.append_nil, eraseDups_of_nodup s.nodup]
    rfl
  | cons a as ih =>
    have hinsert : s.insertAll (a :: as) = (s.insert a).insertAll as := rfl
    rw [hinsert, ih]
    by_cases ha : a ∈ s.toList
    · rw [toList_insert, if_pos ha, List.eraseDups_append, List.eraseDups_append,
        List.cons_removeAll, if_neg (by simpa using ha)]
    · rw [toList_insert_of_not_mem ha, List.append_assoc, List.singleton_append]

/-- The members of a list are listed in its order, each where it is first. -/
theorem toList_ofList (as : List α) : (ofList as).toList = as.eraseDups :=
  toList_insertAll empty as

/-- What is looked for in the order of a set is found first where it was first put in. -/
theorem find?_insertAll (s : OrderedSet α) (as : List α) (f : α → Bool) :
    (s.insertAll as).toList.find? f = (s.toList ++ as).find? f := by
  induction as generalizing s with
  | nil => rw [List.append_nil, insertAll, List.foldl_nil]
  | cons a as ih =>
    have hinsert : s.insertAll (a :: as) = (s.insert a).insertAll as := rfl
    rw [hinsert, ih]
    by_cases ha : a ∈ s.toList
    · rw [toList_insert, if_pos ha, List.find?_append, List.find?_append]
      cases hfound : s.toList.find? f with
      | some b => rfl
      | none =>
        have hfa : ¬ f a = true := List.find?_eq_none.mp hfound a ha
        rw [List.find?_cons_of_neg hfa]
    · rw [toList_insert_of_not_mem ha, List.append_assoc, List.singleton_append]

theorem mem_erase {s : OrderedSet α} {a b : α} : b ∈ s.erase a ↔ b ≠ a ∧ b ∈ s :=
  s.nodup.mem_erase_iff

end OrderedSet

end Labyrinth
