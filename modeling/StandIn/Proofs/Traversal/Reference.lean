import Mathlib.Algebra.GroupWithZero.Nat
import Mathlib.Data.List.Basic
import StandIn.Proofs.Traversal.Turn

/-!
The turns that a module asks for, in their order, once it is known what the observers answer.
-/

namespace StandIn.Traversal

open Modules

-- What observers answer to the questions of a traversal. Packages go by their place in the module,
-- files by their place among the files of the package that are shown, observers by their numbers.
structure Answers where
  package (place number : Nat) : Bool
  file (package place number : Nat) : Bool

instance : Nonempty Answers :=
  ⟨⟨fun _ _ => false, fun _ _ _ => false⟩⟩

-- The files of a package that are shown.
def shownFiles (skipTests : Bool) (l : Loaded) : List SourceFile :=
  l.files.filter fun f => ! (skipTests && f.isTest)

-- An observer sees all of a file, or nothing behind its beginning.
def visitTurns (v : Visit) (number : Nat) (wanted : Bool) : List Turn :=
  ⟨number, .begins v, wanted⟩ ::
    if wanted then
      (Part.ofFile v.file).map (⟨number, .part v ·, true⟩) ++ [⟨number, .ends v, true⟩]
    else []

section

-- The numbers of all observers, in the order in which they are told of things.
variable (numbers : List Nat)

-- A file is shown to those who accepted its package, to one after the other.
def fileTurns (v : Visit) (accepts wants : Nat → Bool) : List Turn :=
  (numbers.filter accepts).flatMap fun n => visitTurns v n (wants n)

def filesTurns (p : Package) (accepts : Nat → Bool) (fs : List SourceFile)
    (wants : Nat → Nat → Bool) : List Turn :=
  fs.zipIdx.flatMap fun (f, k) => fileTurns numbers ⟨p, f⟩ accepts (wants k)

def askTurns (p : Package) (accepts : Nat → Bool) : List Turn :=
  numbers.map fun n => ⟨n, .package p, accepts n⟩

-- All are asked about a package before its first file is shown.
def packageTurns (skipTests : Bool) (l : Loaded) (accepts : Nat → Bool)
    (wants : Nat → Nat → Bool) : List Turn :=
  askTurns numbers l.package accepts ++
    filesTurns numbers l.package accepts (shownFiles skipTests l) wants

def packagesTurns (skipTests : Bool) (ls : List Loaded) (a : Answers) : List Turn :=
  ls.zipIdx.flatMap fun (l, k) => packageTurns numbers skipTests l (a.package k) (a.file k)

def introTurns (names : PackageNames) : List Turn :=
  numbers.map (⟨·, .module names, true⟩)

-- All are told of the module before the first package.
def moduleTurns (skipTests : Bool) (ls : List Loaded) (a : Answers) : List Turn :=
  introTurns numbers (.ofPackages (ls.map Loaded.package)) ++ packagesTurns numbers skipTests ls a

-- How many files are seen by someone.
def filesSeen (accepts : Nat → Bool) (fs : List SourceFile) (wants : Nat → Nat → Bool) : Nat :=
  fs.zipIdx.countP fun (_, k) => numbers.any fun n => accepts n && wants k n

def packagesSeen (skipTests : Bool) (ls : List Loaded) (a : Answers) : Nat :=
  (ls.zipIdx.map fun (l, k) =>
    filesSeen numbers (a.package k) (shownFiles skipTests l) (a.file k)).sum

end

-- Sequences of answers that begin with a given one.
def answersCons {α : Type} (a : α) (as : Nat → α) : Nat → α
  | 0     => a
  | k + 1 => as k

def Answers.cons (accepts : Nat → Bool) (wants : Nat → Nat → Bool) (a : Answers) : Answers where
  package := answersCons accepts a.package
  file    := answersCons wants a.file

variable {numbers : List Nat}

-- With distinct numbers, what one observer answers changes nothing for the others.
theorem askTurns_cons {n : Nat} (h : n ∉ numbers) (p : Package) (a : Bool) (accepts : Nat → Bool) :
    askTurns (n :: numbers) p (Function.update accepts n a) =
      ⟨n, .package p, a⟩ :: askTurns numbers p accepts := by
  simp only [askTurns, List.map_cons, Function.update_self, List.cons.injEq, true_and]
  refine List.map_congr_left fun m hm => ?_
  have hn : m ≠ n := fun he => h (he ▸ hm)
  rw [Function.update_of_ne hn]

theorem fileTurns_cons {n : Nat} (h : n ∉ numbers) (v : Visit) (a : Bool)
    (accepts wants : Nat → Bool) :
    fileTurns (n :: numbers) v accepts (Function.update wants n a) =
      (if accepts n then visitTurns v n a else []) ++ fileTurns numbers v accepts wants := by
  have ht : (numbers.filter accepts).flatMap (fun m => visitTurns v m (Function.update wants n a m)) =
      fileTurns numbers v accepts wants := by
    refine List.flatMap_congr fun m hm => ?_
    have hn : m ≠ n := fun he => h (he ▸ List.mem_of_mem_filter hm)
    rw [Function.update_of_ne hn]
  rw [← ht, fileTurns]
  by_cases ha : accepts n <;> simp [ha]

theorem seen_cons {n : Nat} (h : n ∉ numbers) (a : Bool) (accepts wants : Nat → Bool) :
    ((n :: numbers).any fun m => accepts m && Function.update wants n a m) =
      (accepts n && a || numbers.any fun m => accepts m && wants m) := by
  have ht : (numbers.any fun m => accepts m && Function.update wants n a m) =
      numbers.any fun m => accepts m && wants m := by
    rw [Bool.eq_iff_iff, List.any_eq_true, List.any_eq_true]
    refine exists_congr fun m => and_congr_right fun hm => ?_
    have hn : m ≠ n := fun he => h (he ▸ hm)
    rw [Function.update_of_ne hn]
  simp [ht]

theorem filesTurns_cons (p : Package) (accepts wants : Nat → Bool) (f : SourceFile)
    (fs : List SourceFile) (rest : Nat → Nat → Bool) :
    filesTurns numbers p accepts (f :: fs) (answersCons wants rest) =
      fileTurns numbers ⟨p, f⟩ accepts wants ++ filesTurns numbers p accepts fs rest := by
  simp [filesTurns, List.zipIdx_cons, List.zipIdx_succ, List.flatMap_map, answersCons]

theorem filesSeen_cons (accepts wants : Nat → Bool) (f : SourceFile) (fs : List SourceFile)
    (rest : Nat → Nat → Bool) :
    filesSeen numbers accepts (f :: fs) (answersCons wants rest) =
      (numbers.any fun n => accepts n && wants n).toNat + filesSeen numbers accepts fs rest := by
  have h (b : Bool) : (if b then 1 else 0) = b.toNat := by cases b <;> rfl
  simp only [filesSeen, List.zipIdx_cons, List.zipIdx_succ, List.countP_cons, List.countP_map,
    Function.comp_def, answersCons, h]
  exact Nat.add_comm ..

theorem packagesTurns_cons (skipTests : Bool) (accepts : Nat → Bool) (wants : Nat → Nat → Bool)
    (l : Loaded) (ls : List Loaded) (a : Answers) :
    packagesTurns numbers skipTests (l :: ls) (.cons accepts wants a) =
      packageTurns numbers skipTests l accepts wants ++ packagesTurns numbers skipTests ls a := by
  simp [packagesTurns, List.zipIdx_cons, List.zipIdx_succ, List.flatMap_map, answersCons,
    Answers.cons]

theorem packagesSeen_cons (skipTests : Bool) (accepts : Nat → Bool) (wants : Nat → Nat → Bool)
    (l : Loaded) (ls : List Loaded) (a : Answers) :
    packagesSeen numbers skipTests (l :: ls) (.cons accepts wants a) =
      filesSeen numbers accepts (shownFiles skipTests l) wants +
        packagesSeen numbers skipTests ls a := by
  simp [packagesSeen, List.zipIdx_cons, List.zipIdx_succ, Function.comp_def, answersCons,
    Answers.cons]

variable {skipTests : Bool} {ls : List Loaded} {a : Answers} {t : Turn}

-- The turns of a module are questions about its packages, and looks at the files of those that were
-- accepted.
theorem mem_packagesTurns :
    t ∈ packagesTurns numbers skipTests ls a ↔
      ∃ l k, ls[k]? = some l ∧ (t ∈ askTurns numbers l.package (a.package k) ∨
        ∃ f j, (shownFiles skipTests l)[j]? = some f ∧ ∃ n ∈ numbers, a.package k n ∧
          t ∈ visitTurns ⟨l.package, f⟩ n (a.file k j n)) := by
  simp [packagesTurns, packageTurns, filesTurns, fileTurns, List.mem_zipIdx_iff_getElem?, and_assoc]

theorem ends_mem_visitTurns {v u : Visit} {n m : Nat} {a : Bool} :
    ⟨n, .ends v, true⟩ ∈ visitTurns u m a ↔ n = m ∧ v = u ∧ a := by
  cases a <;> simp [visitTurns]

theorem event_ne_module (h : t ∈ packagesTurns numbers skipTests ls a) (names : PackageNames) :
    t.event ≠ .module names := by
  have ⟨l, k, _, h⟩ := mem_packagesTurns.mp h
  rcases h with h | ⟨f, j, _, n, _, _, h⟩
  case inl =>
    obtain ⟨n, _, rfl⟩ := List.mem_map.mp h
    simp
  case inr =>
    simp only [visitTurns, List.mem_cons] at h
    rcases h with rfl | h
    · simp
    split at h
    case isFalse => simp at h
    case isTrue =>
      simp only [List.mem_append, List.mem_map, List.mem_singleton] at h
      rcases h with ⟨_, _, rfl⟩ | rfl <;> simp

theorem ends_mem_packagesTurns {n : Nat} {v : Visit} :
    ⟨n, .ends v, true⟩ ∈ packagesTurns numbers skipTests ls a ↔
      ∃ l k, ls[k]? = some l ∧ ∃ f j, (shownFiles skipTests l)[j]? = some f ∧
        n ∈ numbers ∧ a.package k n ∧ v = ⟨l.package, f⟩ ∧ a.file k j n := by
  rw [mem_packagesTurns]
  simp only [askTurns, List.mem_map, Turn.mk.injEq, reduceCtorEq, false_and, and_false,
    exists_false, false_or, ends_mem_visitTurns]
  constructor
  case mp =>
    rintro ⟨l, k, hl, f, j, hf, n, hn, ha, rfl, rfl, hw⟩
    exact ⟨l, k, hl, f, j, hf, hn, ha, rfl, hw⟩
  case mpr =>
    rintro ⟨l, k, hl, f, j, hf, hn, ha, rfl, hw⟩
    exact ⟨l, k, hl, f, j, hf, n, hn, ha, rfl, rfl, hw⟩

end StandIn.Traversal
