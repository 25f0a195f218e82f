/-!
Finite sets of names, kept in order so that equal sets are equal values.
-/

namespace StandIn

structure NameSet where
  toList : List String
  sorted : toList.Pairwise (· < ·)

namespace NameSet

instance : Membership String NameSet where
  mem s x := x ∈ s.toList

instance (x : String) (s : NameSet) : Decidable (x ∈ s) :=
  inferInstanceAs (Decidable (x ∈ s.toList))

theorem mem_def {x : String} {s : NameSet} : x ∈ s ↔ x ∈ s.toList := .rfl

def empty : NameSet where
  toList := []
  sorted := .nil

instance : EmptyCollection NameSet := ⟨empty⟩

def size (s : NameSet) : Nat :=
  s.toList.length

-- Puts a name in its place, once.
def insertInto (x : String) : List String → List String
  | []      => [x]
  | y :: ys => if x < y then x :: y :: ys else if x = y then y :: ys else y :: insertInto x ys

theorem mem_insertInto {x z : String} {ys : List String} :
    z ∈ insertInto x ys ↔ z = x ∨ z ∈ ys := by
  induction ys with
  | nil => simp [insertInto]
  | cons y ys ih =>
    simp only [insertInto]
    split
    · simp
    · split
      · next e => subst e; simp
      · simp only [List.mem_cons, ih, or_left_comm]

theorem sorted_insertInto {x : String} {ys : List String} (h : ys.Pairwise (· < ·)) :
    (insertInto x ys).Pairwise (· < ·) := by
  induction h with
  | nil => simp [insertInto]
  | @cons y ys hy hys ih =>
    simp only [insertInto]
    split
    · next hlt =>
      refine .cons (fun z hz => ?_) (.cons hy hys)
      cases List.mem_cons.mp hz with
      | inl e => exact e ▸ hlt
      | inr m => exact String.lt_trans hlt (hy z m)
    · split
      · exact .cons hy hys
      · next hlt hne =>
        refine .cons (fun z hz => ?_) ih
        cases mem_insertInto.mp hz with
        | inl e =>
          subst e
          exact Decidable.byContradiction fun hge =>
            hne (String.le_antisymm (String.not_lt.mp hge) (String.not_lt.mp hlt))
        | inr m => exact hy z m

def insert (x : String) (s : NameSet) : NameSet where
  toList := insertInto x s.toList
  sorted := sorted_insertInto s.sorted

def union (s t : NameSet) : NameSet :=
  t.toList.foldl (fun u x => u.insert x) s

def ofList (xs : List String) : NameSet :=
  xs.foldl (fun u x => u.insert x) ∅

theorem mem_insert {x z : String} {s : NameSet} : z ∈ s.insert x ↔ z = x ∨ z ∈ s :=
  mem_insertInto

end NameSet

end StandIn
