import Mathlib.Data.Prod.Lex
import Mathlib.Data.String.Basic
import Mathlib.Order.WithBot
import StandIn.Code.Imports
import StandIn.Proofs.Text.Splice

/-!
What becomes of imports. Those of the file that bind a used name are kept, others are made up, and
of all that bind the same the first one stays. What a generated file has is told by what it binds;
where no two imports bind the same in different words, it does not matter in which order they came.
-/

namespace StandIn.Code

section

variable {written made front : List ImportSpec} {used : NameSet} {i j : ImportSpec}

theorem sameBinding_iff : sameBinding i j ↔ i.path = j.path ∧ i.localName? = j.localName? := by
  simp [sameBinding]

theorem mem_keptImports :
    i ∈ keptImports written used ↔ i ∈ written ∧ ∃ n, i.localName? = some n ∧ n ∈ used := by
  simp [keptImports, List.mem_filter, Option.any_eq_true]

theorem mem_of_mem_firstOfEach {is : List ImportSpec} (h : i ∈ firstOfEach is) : i ∈ is := by
  induction is
  case nil => exact h
  case cons j is hi =>
    rcases List.mem_cons.mp h with rfl | h
    case inl => exact List.mem_cons_self
    case inr => exact List.mem_cons_of_mem _ (hi (List.mem_filter.mp h).1)

-- The first of those that bind the same is not behind any of them.
theorem exists_firstOfEach (back : List ImportSpec) (hi : i ∈ front) :
    ∃ j ∈ front, j ∈ firstOfEach (front ++ back) ∧ j.path = i.path ∧
      j.localName? = i.localName? := by
  induction front
  case nil => contradiction
  case cons k front hf =>
    rw [List.cons_append, firstOfEach]
    rcases List.mem_cons.mp hi with rfl | hi
    case inl => exact ⟨i, List.mem_cons_self, List.mem_cons_self, rfl, rfl⟩
    case inr =>
      obtain ⟨j, hj, hm, hp, hn⟩ := hf hi
      by_cases hk : sameBinding k j
      case pos =>
        obtain ⟨hkp, hkn⟩ := sameBinding_iff.mp hk
        exact ⟨k, List.mem_cons_self, List.mem_cons_self, hkp.trans hp, hkn.trans hn⟩
      case neg =>
        exact ⟨j, List.mem_cons_of_mem _ hj,
          List.mem_cons_of_mem _ (List.mem_filter.mpr ⟨hm, by simp [hk]⟩), hp, hn⟩

-- Imports are kept for what is used, or made up.
theorem mem_of_mem_resolveImports (h : j ∈ resolveImports written used made) :
    ∃ i ∈ keptImports written used ++ made, j = madeImport i.name i.path := by
  rw [resolveImports, List.mem_mergeSort, List.mem_map] at h
  obtain ⟨i, hi, rfl⟩ := h
  exact ⟨i, mem_of_mem_firstOfEach hi, rfl⟩

-- What binds a used name is kept, or else another import of the file that binds the same.
theorem exists_resolveImports (made : List ImportSpec) (h : i ∈ keptImports written used) :
    ∃ j ∈ keptImports written used, madeImport j.name j.path ∈ resolveImports written used made ∧
      j.path = i.path ∧ j.localName? = i.localName? := by
  obtain ⟨j, hj, hm, hp, hn⟩ := exists_firstOfEach made h
  refine ⟨j, hj, ?_, hp, hn⟩
  rw [resolveImports, List.mem_mergeSort]
  exact List.mem_map_of_mem (f := fun i => madeImport i.name i.path) hm

end

open ImportSpec (isStandard)

-- What an import binds: a path to a name, if to any.
def binding (i : ImportSpec) : String × Option String :=
  (i.path, i.localName?)

-- Nothing comes before a name.
def nameKey : Option String → WithBot String
  | none      => ⊥
  | some name => name

-- What imports are ordered by: the standard library comes first, then paths decide, and of one path
-- names.
def importKey (i : ImportSpec) : Bool ×ₗ String ×ₗ WithBot String :=
  toLex (! isStandard i.path, toLex (i.path, nameKey i.name))

variable {written written' made made' is : List ImportSpec} {used : NameSet} {i j : ImportSpec}

theorem binding_eq_iff : binding i = binding j ↔ i.path = j.path ∧ i.localName? = j.localName? := by
  rw [binding, binding, Prod.mk.injEq]

theorem nameKey_injective : Function.Injective nameKey
  | none, none, _     => rfl
  | some _, some _, h => congrArg some (WithBot.coe_injective h)

theorem importKey_eq_iff : importKey i = importKey j ↔ i.path = j.path ∧ i.name = j.name := by
  simp only [importKey, EmbeddingLike.apply_eq_iff_eq, Prod.mk.injEq, nameKey_injective.eq_iff]
  exact and_iff_right_of_imp fun h => by rw [h.1]

theorem nameLe_iff {a b : Option String} : nameLe a b ↔ nameKey a ≤ nameKey b := by
  cases a
  case none => exact iff_of_true rfl bot_le
  case some a =>
    cases b
    case none   => exact iff_of_false Bool.noConfusion (WithBot.not_coe_le_bot a)
    case some b => exact decide_eq_true_iff.trans WithBot.coe_le_coe.symm

theorem importLe_iff : importLe i j ↔ importKey i ≤ importKey j := by
  rw [importLe, importKey, importKey, Prod.Lex.toLex_le_toLex, Prod.Lex.toLex_le_toLex]
  cases isStandard i.path <;> cases isStandard j.path
  all_goals simp [nameLe_iff]

theorem trans_importLe (i j k : ImportSpec) : importLe i j → importLe j k → importLe i k := by
  simp only [importLe_iff]
  exact le_trans

theorem total_importLe (i j : ImportSpec) : importLe i j || importLe j i := by
  rw [Bool.or_eq_true, importLe_iff, importLe_iff]
  exact le_total _ _

-- The same by insertion, one import after the other.
theorem resolveImports_eq (written : List ImportSpec) (used : NameSet) (made : List ImportSpec) :
    resolveImports written used made =
      ((firstOfEach (keptImports written used ++ made)).map
        fun i => madeImport i.name i.path).insertionSort (importLe · ·) :=
  Text.mergeSort_eq_insertionSort trans_importLe total_importLe _

/-! What is bound. -/

theorem nodup_firstOfEach (is : List ImportSpec) : ((firstOfEach is).map binding).Nodup := by
  induction is
  case nil => exact .nil
  case cons i is hi =>
    rw [firstOfEach, List.map_cons, List.nodup_cons]
    refine ⟨fun hm => ?_, hi.sublist (List.filter_sublist.map _)⟩
    obtain ⟨j, hj, hb⟩ := List.mem_map.mp hm
    have hs : ¬ sameBinding i j := by simpa using (List.mem_filter.mp hj).2
    exact hs (sameBinding_iff.mpr (binding_eq_iff.mp hb.symm))

theorem exists_firstOfEach_binding (hi : i ∈ is) : ∃ j ∈ firstOfEach is, binding j = binding i := by
  obtain ⟨j, -, hj, hp, hn⟩ := exists_firstOfEach [] hi
  exact ⟨j, by rwa [List.append_nil] at hj, binding_eq_iff.mpr ⟨hp, hn⟩⟩

theorem mem_firstOfEach_bindings {b : String × Option String} :
    b ∈ (firstOfEach is).map binding ↔ b ∈ is.map binding := by
  constructor
  case mp =>
    intro h
    obtain ⟨i, hi, rfl⟩ := List.mem_map.mp h
    exact List.mem_map_of_mem (mem_of_mem_firstOfEach hi)
  case mpr =>
    intro h
    obtain ⟨i, hi, rfl⟩ := List.mem_map.mp h
    obtain ⟨j, hj, hb⟩ := exists_firstOfEach_binding hi
    exact hb ▸ List.mem_map_of_mem hj

-- Where an import stood in its file does not matter for what it binds.
theorem bindings_perm (written : List ImportSpec) (used : NameSet) (made : List ImportSpec) :
    ((resolveImports written used made).map binding).Perm
      ((firstOfEach (keptImports written used ++ made)).map binding) := by
  have hp := (List.mergeSort_perm ((firstOfEach (keptImports written used ++ made)).map
    fun i => madeImport i.name i.path) importLe).map binding
  rwa [List.map_map] at hp

theorem nodup_bindings (written : List ImportSpec) (used : NameSet) (made : List ImportSpec) :
    ((resolveImports written used made).map binding).Nodup :=
  (bindings_perm written used made).nodup_iff.mpr (nodup_firstOfEach _)

theorem mem_bindings {b : String × Option String} :
    b ∈ (resolveImports written used made).map binding ↔
      b ∈ (keptImports written used ++ made).map binding :=
  (bindings_perm written used made).mem_iff.trans mem_firstOfEach_bindings

/-! In which order. -/

-- What has the same place in the order binds the same.
theorem binding_eq_of_importKey (h : importKey i = importKey j) : binding i = binding j := by
  obtain ⟨hp, hn⟩ := importKey_eq_iff.mp h
  rw [binding_eq_iff]
  simp [ImportSpec.localName?, ImportSpec.isBlankOrDot, hp, hn]

theorem increasing_resolveImports (written : List ImportSpec) (used : NameSet)
    (made : List ImportSpec) :
    (resolveImports written used made).Pairwise fun i j => importKey i < importKey j := by
  have hs : (resolveImports written used made).Pairwise fun i j => importLe i j :=
    List.pairwise_mergeSort trans_importLe total_importLe _
  have hb := List.pairwise_map.mp (nodup_bindings written used made)
  refine (hs.and hb).imp fun {i j} h => ?_
  exact lt_of_le_of_ne (importLe_iff.mp h.1) fun he => h.2 (binding_eq_of_importKey he)

-- What binds the same is called the same in all places.
def Uniform (is : List ImportSpec) : Prop :=
  ∀ i ∈ is, ∀ j ∈ is, binding i = binding j → i.name = j.name

instance : Decidable (Uniform is) :=
  inferInstanceAs (Decidable (∀ i ∈ is, ∀ j ∈ is, binding i = binding j → i.name = j.name))

theorem mem_resolveImports_of_uniform (hu : Uniform (keptImports written used ++ made)) :
    j ∈ resolveImports written used made ↔
      ∃ i ∈ keptImports written used ++ made, madeImport i.name i.path = j := by
  rw [resolveImports, List.mem_mergeSort, List.mem_map]
  constructor
  case mp =>
    rintro ⟨i, hi, he⟩
    exact ⟨i, mem_of_mem_firstOfEach hi, he⟩
  case mpr =>
    rintro ⟨i, hi, rfl⟩
    obtain ⟨k, hk, hb⟩ := exists_firstOfEach_binding hi
    refine ⟨k, hk, ?_⟩
    rw [hu k (mem_of_mem_firstOfEach hk) i hi hb, (binding_eq_iff.mp hb).1]

theorem resolveImports_perm (hw : written'.Perm written) (hm : made'.Perm made)
    (hu : Uniform (written ++ made)) :
    resolveImports written' used made' = resolveImports written used made := by
  have hk : (keptImports written' used ++ made').Perm (keptImports written used ++ made) :=
    (hw.filter _).append hm
  have hs : keptImports written used ++ made ⊆ written ++ made :=
    List.append_subset.mpr ⟨fun i hi => List.mem_append_left _ (mem_keptImports.mp hi).1,
      List.subset_append_right _ _⟩
  have hu : Uniform (keptImports written used ++ made) :=
    fun i hi j hj => hu i (hs hi) j (hs hj)
  have hu' : Uniform (keptImports written' used ++ made') :=
    fun i hi j hj => hu i (hk.subset hi) j (hk.subset hj)
  have hi := increasing_resolveImports written used made
  have hi' := increasing_resolveImports written' used made'
  have hp : (resolveImports written' used made').Perm (resolveImports written used made) := by
    refine (List.perm_ext_iff_of_nodup ?_ ?_).mpr fun j => ?_
    case refine_1 => exact hi'.imp fun h he => h.ne (congrArg importKey he)
    case refine_2 => exact hi.imp fun h he => h.ne (congrArg importKey he)
    case refine_3 =>
      rw [mem_resolveImports_of_uniform hu, mem_resolveImports_of_uniform hu']
      simp only [hk.mem_iff]
  exact hp.eq_of_pairwise (fun _ _ _ _ h h' => absurd h' h.asymm) hi' hi

/-! How imports are written. -/

def importLines : List ImportSpec → String
  | []      => ""
  | i :: is => "\t" ++ i.text ++ "\n" ++ importLines is

-- The imports of the standard library, and the others.
def standards (is : List ImportSpec) : List ImportSpec :=
  is.filter fun i => isStandard i.path

def others (is : List ImportSpec) : List ImportSpec :=
  is.filter fun i => ! isStandard i.path

theorem isStandard_of_lt (h : importKey i < importKey j) (hj : isStandard j.path) :
    isStandard i.path := by
  have hb : (! isStandard i.path) ≤ ! isStandard j.path := Prod.Lex.monotone_fst _ _ h.le
  rw [hj] at hb
  cases hi : isStandard i.path
  case true  => rfl
  case false => exact absurd (hi ▸ hb) (by decide)

theorem standards_append_others (h : is.Pairwise fun i j => importKey i < importKey j) :
    standards is ++ others is = is := by
  induction h
  case nil => rfl
  case cons i is hi _ hs =>
    rw [standards, others, List.filter_cons, List.filter_cons]
    by_cases hp : isStandard i.path
    case pos =>
      simp only [hp, if_true, Bool.not_true, Bool.false_eq_true, if_false, List.cons_append]
      exact congrArg _ hs
    case neg =>
      have hn : standards is = [] :=
        List.filter_eq_nil_iff.mpr fun j hj hs => hp (isStandard_of_lt (hi j hj) hs)
      rw [hn, List.nil_append] at hs
      rw [← standards, ← others, hn, hs]
      simp [hp]

theorem groupLines_others (h : ∀ i ∈ is, ¬ isStandard i.path) :
    groupLines false is = importLines is := by
  induction is
  case nil => rfl
  case cons i is hi =>
    obtain ⟨hp, hs⟩ := List.forall_mem_cons.mp h
    simp [groupLines, importLines, hp, hi hs]

theorem groupLines_append (afterStandard : Bool) (h : ∀ i ∈ is, isStandard i.path)
    (back : List ImportSpec) :
    groupLines afterStandard (is ++ back) =
      importLines is ++ groupLines (afterStandard || ! is.isEmpty) back := by
  induction is generalizing afterStandard
  case nil => simp [importLines]
  case cons i is hi =>
    obtain ⟨hp, hs⟩ := List.forall_mem_cons.mp h
    simp [groupLines, importLines, hp, hi _ hs, String.append_assoc]

-- One empty line, where the standard library is left.
theorem groupLines_eq (h : is.Pairwise fun i j => importKey i < importKey j) :
    groupLines false is = importLines (standards is) ++
      (if standards is = [] ∨ others is = [] then "" else "\n") ++ importLines (others is) := by
  have hs : ∀ i ∈ standards is, isStandard i.path := fun i hi => (List.mem_filter.mp hi).2
  have ho : ∀ i ∈ others is, ¬ isStandard i.path := fun i hi => by
    simpa using (List.mem_filter.mp hi).2
  have hg := groupLines_append false hs (others is)
  rw [standards_append_others h] at hg
  rw [hg]
  cases hn : standards is
  case nil => simp [groupLines_others ho]
  case cons =>
    cases hm : others is
    case nil => simp [groupLines, importLines]
    case cons i is =>
      rw [hm] at ho
      obtain ⟨hp, ho⟩ := List.forall_mem_cons.mp ho
      simp only [groupLines, importLines, hp, groupLines_others ho, String.append_assoc]
      rfl

theorem importBlock_eq (h : is.Pairwise fun i j => importKey i < importKey j) :
    importBlock is =
      if is.length < 2 then .join (is.map fun i => "import " ++ i.text ++ "\n")
      else
        "import (\n" ++ importLines (standards is) ++
          (if standards is = [] ∨ others is = [] then "" else "\n") ++ importLines (others is) ++
          ")\n" := by
  match is with
  | []           => rfl
  | [i]          => rfl
  | i :: j :: is =>
    have hl : ¬ (i :: j :: is).length < 2 := by simp
    rw [if_neg hl]
    simp only [importBlock, groupLines_eq h, String.append_assoc]

-- Imports come in strict order and bind each name to a path once. They bind what the imports of the
-- file bind that are used, and what the ones that are made up bind; if these agree in how they call
-- what they bind, it is all the same in which order they come. They are written with an empty line
-- only where the standard library ends and others follow.
theorem resolveImports_canonical (written : List ImportSpec) (used : NameSet)
    (made : List ImportSpec) :
    let resolved := resolveImports written used made
    resolved.Pairwise (fun i j => importKey i < importKey j) ∧
    (resolved.map binding).Nodup ∧
    (∀ b, b ∈ resolved.map binding ↔
      (∃ i ∈ written, (∃ n ∈ used, i.localName? = some n) ∧ binding i = b) ∨
        ∃ i ∈ made, binding i = b) ∧
    (Uniform (written ++ made) → ∀ written' made' : List ImportSpec, written'.Perm written →
      made'.Perm made → resolveImports written' used made' = resolved) ∧
    standards resolved ++ others resolved = resolved ∧
    importBlock resolved =
      if resolved.length < 2 then .join (resolved.map fun i => "import " ++ i.text ++ "\n")
      else
        "import (\n" ++ importLines (standards resolved) ++
          (if standards resolved = [] ∨ others resolved = [] then "" else "\n") ++
          importLines (others resolved) ++ ")\n" := by
  intro resolved
  have hi : resolved.Pairwise fun i j => importKey i < importKey j :=
    increasing_resolveImports written used made
  refine ⟨hi, nodup_bindings written used made, fun b => ?_, fun hu _ _ hw hm => ?_,
    standards_append_others hi, importBlock_eq hi⟩
  case refine_1 =>
    rw [mem_bindings, List.map_append, List.mem_append, List.mem_map, List.mem_map]
    simp only [mem_keptImports, and_assoc, and_comm (a := _ = some _)]
  case refine_2 => exact resolveImports_perm hw hm hu

-- A file with imports of both kinds, some of which are not used, and what a mock of it adds.
theorem resolveImports_canonical_mock :
    let imports := [madeImport none "gopkg.in/yaml.v3", madeImport (some "_") "embed",
      madeImport (some "users") "m/user", madeImport none "fmt", madeImport none "context"]
    let made := [madeImport none "testing", madeImport (some "_svc") "m/svc", madeImport none "context"]
    let resolved := [madeImport none "context", madeImport (some "_svc") "m/svc",
      madeImport (some "users") "m/user", madeImport none "testing", madeImport none "gopkg.in/yaml.v3"]
    let used := .ofList ["context", "users", "yaml"]
    resolveImports imports used made = resolved ∧
      resolveImports imports.reverse used made.reverse = resolved ∧
      importBlock (resolveImports imports used made) =
        "import (\n\t\"context\"\n\t_svc \"m/svc\"\n\tusers \"m/user\"\n\t\"testing\"\n\n" ++
          "\t\"gopkg.in/yaml.v3\"\n)\n" := by
  intro imports made resolved used
  have hr : resolveImports imports used made = resolved := by
    rw [resolveImports_eq]
    decide +kernel
  have hu : Uniform (imports ++ made) := by decide +kernel
  obtain ⟨-, -, -, hp, -, hb⟩ := resolveImports_canonical imports used made
  refine ⟨hr, (hp hu _ _ imports.reverse_perm made.reverse_perm).trans hr, ?_⟩
  rw [hb, hr]
  decide +kernel

end StandIn.Code
