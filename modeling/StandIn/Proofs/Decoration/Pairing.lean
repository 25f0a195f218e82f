import StandIn.Proofs.Decoration.Signature

/-!
Which interfaces of a file find structs. They choose in the order of the file, each of them the best
struct that is left, and there is just one way to do so. Constructors belong to the interfaces that
they return.
-/

namespace StandIn

-- An interface that a proxy can stand for, with its methods.
def Decl.decoratable? : Decl → Option (String × List Method)
  | .type ⟨name, none, _, .interface methods [], _⟩ =>
    if Name.isExported name ∧ ∀ m ∈ methods, Name.isExported m.name then some (name, methods)
    else none
  | _ => none

-- A struct that a proxy can have the name of.
def Decl.hiddenStruct? : Decl → Option String
  | .type ⟨name, none, _, .struct _, _⟩ => if Name.isExported name then none else some name
  | _                                   => none

def Decl.func? : Decl → Option FuncDecl
  | .func d => some d
  | _       => none

namespace SourceFile

variable (f : SourceFile)

def decoratables : List (String × List Method) :=
  f.decls.filterMap Decl.decoratable?

def hiddenStructs : List String :=
  f.decls.filterMap Decl.hiddenStruct?

def funcs : List FuncDecl :=
  f.decls.filterMap Decl.func?

-- Whether a struct has a method, for itself or for pointers to it.
def Declares (struct method : String) : Prop :=
  ∃ d ∈ f.funcs, d.name = method ∧ d.receiverType? = some struct ∧ d.typeParams = none

instance (struct method : String) : Decidable (f.Declares struct method) :=
  inferInstanceAs (Decidable (∃ d ∈ f.funcs, _))

-- How many of some methods a struct has.
def declared (methods : List Method) (struct : String) : Nat :=
  methods.countP fun m => f.Declares struct m.name

end SourceFile

namespace Decoration

open Traversal

theorem Best.unique {score : String → Nat} {structs : List String} {struct other : String}
    (hs : Best score structs struct) (ho : Best score structs other) : struct = other := by
  obtain ⟨front, back, rfl, -, hf, hb⟩ := hs
  obtain ⟨front', back', he, -, hf', hb'⟩ := ho
  rcases List.append_eq_append_iff.mp he with ⟨amid, rfl, hs⟩ | ⟨amid, rfl, hs⟩
  case inl =>
    cases amid
    case nil => exact (List.cons.inj hs).1
    case cons =>
      obtain ⟨rfl, rfl⟩ := List.cons.inj hs
      exact absurd (hf' struct (by simp)) (Nat.not_le_of_lt (hb other (by simp)))
  case inr =>
    cases amid
    case nil => exact (List.cons.inj hs).1.symm
    case cons =>
      obtain ⟨rfl, rfl⟩ := List.cons.inj hs
      exact absurd (hf other (by simp)) (Nat.not_le_of_lt (hb' struct (by simp)))

-- Interfaces choose one after the other. Each takes the best struct that is left, and passes if none
-- that is left is any good.
inductive Pairs (structs : List String) (score : List Method → String → Nat) :
    List String → List (String × List Method) → List (String × String) → Prop
  | nil {taken} : Pairs structs score taken [] []
  | pair {taken interface methods is struct pairs} :
    Best (score methods) (structs.filter (! taken.contains ·)) struct →
    Pairs structs score (struct :: taken) is pairs →
    Pairs structs score taken ((interface, methods) :: is) ((interface, struct) :: pairs)
  | pass {taken interface methods is pairs} :
    (∀ struct ∈ structs.filter (! taken.contains ·), score methods struct = 0) →
    Pairs structs score taken is pairs →
    Pairs structs score taken ((interface, methods) :: is) pairs

namespace Pairs

variable {structs taken : List String} {score : List Method → String → Nat}
  {is : List (String × List Method)} {pairs pairs' : List (String × String)}

theorem unique (h : Pairs structs score taken is pairs) (h' : Pairs structs score taken is pairs') :
    pairs = pairs' := by
  have hp {methods : List Method} {taken : List String} {struct : String}
      (hb : Best (score methods) (structs.filter (! taken.contains ·)) struct) :
      ¬ ∀ struct ∈ structs.filter (! taken.contains ·), score methods struct = 0 := fun hz => by
    have hm := hz struct hb.mem
    obtain ⟨_, _, -, hp, -⟩ := hb
    omega
  induction h generalizing pairs'
  case nil =>
    cases h'
    rfl
  case pair hb _ hi =>
    cases h'
    case pair hb' h' =>
      obtain rfl := hb.unique hb'
      rw [hi h']
    case pass hz _ => exact absurd hz (hp hb)
  case pass hz _ hi =>
    cases h'
    case pair hb _ => exact absurd hz (hp hb)
    case pass h'   => exact hi h'

-- What is taken stays taken.
theorem nodup_structs (h : Pairs structs score taken is pairs) :
    (pairs.map Prod.snd).Nodup ∧ ∀ p ∈ pairs, p.2 ∉ taken := by
  induction h
  case nil         => exact ⟨.nil, nofun⟩
  case pass hi     => exact hi
  case pair taken _ _ _ struct _ hb _ hi =>
    have ht : struct ∉ taken := by simpa using (List.mem_filter.mp hb.mem).2
    rw [List.map_cons, List.nodup_cons, List.forall_mem_cons]
    refine ⟨⟨fun h => ?_, hi.1⟩, ht, fun p hp hm => hi.2 p hp (List.mem_cons_of_mem _ hm)⟩
    obtain ⟨p, hp, hs⟩ := List.mem_map.mp h
    exact hi.2 p hp (hs ▸ List.mem_cons_self)

theorem interfaces_sublist (h : Pairs structs score taken is pairs) :
    (pairs.map Prod.fst).Sublist (is.map Prod.fst) := by
  induction h
  case nil     => exact .slnil
  case pair hi => exact hi.cons_cons _
  case pass hi => exact hi.cons _

end Pairs

namespace LayerFile

-- An interface with exported methods only, which other packages can implement.
def isOpen (i : String × List Method) : Bool :=
  i.2.all fun m => Name.isExported m.name

-- The proxies of a file stand for what has found each other.
theorem pairs_proxiesWithout (l : LayerFile) (taken : List String)
    (is : List (String × List Method)) :
    Pairs l.structs l.score taken (is.filter isOpen)
      ((l.proxiesWithout taken is).map fun p => (p.interface, p.struct)) := by
  induction is generalizing taken
  case nil => exact .nil
  case cons i is hi =>
    obtain ⟨name, methods⟩ := i
    rw [proxiesWithout]
    split
    case isFalse he =>
      have he : ¬ isOpen (name, methods) := he
      rw [List.filter_cons_of_neg he]
      exact hi taken
    case isTrue he =>
      have he : isOpen (name, methods) := he
      have hf := found_implementing? l methods taken
      rw [List.filter_cons_of_pos he]
      split
      case h_1 hs =>
        rw [hs] at hf
        exact .pair hf (hi _)
      case h_2 hn =>
        rw [hn] at hf
        exact .pass hf (hi taken)

-- No struct has two proxies.
theorem nodup_structs (l : LayerFile) : (l.proxies.map Proxy.struct).Nodup := by
  have hn := (l.pairs_proxiesWithout [] l.interfaces).nodup_structs.1
  rwa [List.map_map] at hn

-- Interfaces have at most one proxy.
theorem interfaces_sublist (l : LayerFile) :
    (l.proxies.map Proxy.interface).Sublist (l.interfaces.map Prod.fst) := by
  have hs := (l.pairs_proxiesWithout [] l.interfaces).interfaces_sublist
  rw [List.map_map] at hs
  exact hs.trans (List.filter_sublist.map Prod.fst)

variable (f : SourceFile)

theorem filterMap_ofFile {α : Type} {part? : Part → Option α} {decl? : Decl → Option α}
    (h : ∀ d, (Part.ofDecl d).filterMap part? = (decl? d).toList) :
    (Part.ofFile f).filterMap part? = f.decls.filterMap decl? := by
  rw [Part.ofFile, List.filterMap_flatMap, List.filterMap_eq_flatMap_toList]
  exact List.flatMap_congr fun d _ => h d

theorem funcs_ofFile : (ofFile f).funcs = f.funcs :=
  filterMap_ofFile f fun d => by
    rcases d with specs | ⟨_, _, _, _ | _ | _ | _, _⟩ | d
    all_goals simp [Part.ofDecl, funcOf?, Decl.func?]

theorem structs_ofFile : (ofFile f).structs = f.hiddenStructs :=
  filterMap_ofFile f fun d => by
    rcases d with specs | ⟨name, _ | _, _, _ | _ | _ | _, _⟩ | d
    case type.none.struct =>
      cases h : Name.isExported name
      all_goals simp [Part.ofDecl, structOf?, Decl.hiddenStruct?, TypeDecl.isGeneric, h]
    all_goals simp [Part.ofDecl, structOf?, Decl.hiddenStruct?, TypeDecl.isGeneric]

theorem interfaces_ofFile : (ofFile f).interfaces.filter isOpen = f.decoratables := by
  have hf : (ofFile f).interfaces.filter isOpen =
      (Part.ofFile f).filterMap fun p => (interfaceOf? p).filter isOpen := by
    rw [ofFile, List.filter_filterMap]
  refine hf.trans (filterMap_ofFile f fun d => ?_)
  rcases d with specs | ⟨name, _ | _, _, _ | ⟨methods, _ | _⟩ | _ | _, _⟩ | d
  case type.none.interface.nil =>
    have ho : isOpen (name, methods) ↔ ∀ m ∈ methods, Name.isExported m.name := by simp [isOpen]
    cases h : Name.isExported name
    case false => simp [Part.ofDecl, interfaceOf?, Decl.decoratable?, TypeDecl.isGeneric, h]
    case true =>
      by_cases hm : ∀ m ∈ methods, Name.isExported m.name
      case pos =>
        simp [Part.ofDecl, interfaceOf?, Decl.decoratable?, TypeDecl.isGeneric, h, ho.mpr hm,
          Option.filter_some, if_pos hm]
      case neg =>
        simpa [Part.ofDecl, interfaceOf?, Decl.decoratable?, TypeDecl.isGeneric, h, mt ho.mp hm,
          Option.filter_some] using hm
  all_goals simp [Part.ofDecl, interfaceOf?, Decl.decoratable?, TypeDecl.isGeneric]

theorem score_ofFile : (ofFile f).score = f.declared := by
  funext methods struct
  refine List.countP_congr fun m _ => ?_
  rw [decide_eq_true_iff, SourceFile.Declares, ← funcs_ofFile]
  simp only [methodOf?, List.find?_isSome, Bool.and_eq_true, beq_iff_eq, Option.isNone_iff_eq_none,
    and_assoc]

end LayerFile

-- Results that are an interface of the own package, alone or with an error.
inductive Returns (interface : String) : List Param → Prop
  | alone {name args variadic} :
    Returns interface [⟨name, .named none interface args, variadic⟩]
  | checked {name args variadic name' args' variadic'} :
    Returns interface
      [⟨name, .named none interface args, variadic⟩, ⟨name', .named none "error" args', variadic'⟩]

-- A function by which other packages get values of an interface.
structure Constructs (interface : String) (d : FuncDecl) : Prop where
  exported   : Name.isExported d.name
  receiver   : d.receiver = none
  typeParams : d.typeParams = none
  results    : Returns interface d.signature.results

namespace LayerFile

variable {interface name : String}

theorem isLocal_iff {t : TypeExpr} : t.isLocal name ↔ ∃ args, t = .named none name args := by
  rcases t with ⟨_ | _, _, _⟩
  all_goals simp [TypeExpr.isLocal]

theorem returns_iff {ps : List Param} : constructorsOf.returns interface ps ↔ Returns interface ps := by
  constructor
  case mp =>
    intro h
    rcases ps with _ | ⟨⟨_, first, _⟩, _ | ⟨⟨_, second, _⟩, _ | _⟩⟩
    case nil => simp [constructorsOf.returns] at h
    case cons.nil =>
      obtain ⟨_, rfl⟩ := isLocal_iff.mp h
      exact .alone
    case cons.cons.nil =>
      obtain ⟨hf, hs⟩ := Bool.and_eq_true_iff.mp h
      obtain ⟨_, rfl⟩ := isLocal_iff.mp hf
      obtain ⟨_, rfl⟩ := isLocal_iff.mp hs
      exact .checked
    case cons.cons.cons => simp [constructorsOf.returns] at h
  case mpr =>
    rintro (_ | _)
    all_goals simp [constructorsOf.returns, TypeExpr.isLocal, TypeExpr.isError]

theorem constructs_iff {d : FuncDecl} :
    (d.receiver.isNone && d.typeParams.isNone && Name.isExported d.name &&
      constructorsOf.returns interface d.signature.results) ↔ Constructs interface d := by
  simp only [Bool.and_eq_true, Option.isNone_iff_eq_none, returns_iff]
  exact ⟨fun ⟨⟨⟨hr, ht⟩, he⟩, hs⟩ => ⟨he, hr, ht, hs⟩, fun ⟨he, hr, ht, hs⟩ => ⟨⟨⟨hr, ht⟩, he⟩, hs⟩⟩

instance (d : FuncDecl) : Decidable (Constructs interface d) :=
  decidable_of_iff _ constructs_iff

theorem constructorsOf_ofFile (interface : String) :
    (ofFile f).constructorsOf interface =
      (f.funcs.filter (Constructs interface ·)).map fun d => ⟨d.name, d.signature⟩ := by
  rw [constructorsOf, funcs_ofFile, ← List.filterMap_eq_map, List.filterMap_filter]
  refine List.filterMap_congr fun d _ => if_congr ?_ rfl rfl
  rw [decide_eq_true_iff, constructs_iff]

end LayerFile

-- Interfaces that can be stood for get the structs that have most of their methods, in the order of
-- the file. No struct is given twice, and constructors are the functions that return the interface.
theorem proxies_pair (f : SourceFile) :
    (∀ pairs, Pairs f.hiddenStructs f.declared [] f.decoratables pairs ↔
      (LayerFile.ofFile f).proxies.map (fun p => (p.interface, p.struct)) = pairs) ∧
    ((LayerFile.ofFile f).proxies.map Proxy.struct).Nodup ∧
    ∀ p ∈ (LayerFile.ofFile f).proxies, p.constructors =
      (f.funcs.filter (Constructs p.interface ·)).map fun d => ⟨d.name, d.signature⟩ := by
  refine ⟨fun pairs => ?_, LayerFile.nodup_structs _, fun p h => ?_⟩
  case refine_1 =>
    have hp := (LayerFile.ofFile f).pairs_proxiesWithout [] (LayerFile.ofFile f).interfaces
    rw [LayerFile.structs_ofFile, LayerFile.score_ofFile, LayerFile.interfaces_ofFile] at hp
    exact ⟨hp.unique, fun h => h ▸ hp⟩
  case refine_2 =>
    rw [LayerFile.constructors_of_mem_proxiesWithout h, LayerFile.constructorsOf_ofFile]

end Decoration

end StandIn
