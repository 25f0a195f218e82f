import Mathlib.Data.List.Nodup
import Mathlib.Data.List.Perm.Basic
import StandIn.Doubles.Mocking
import StandIn.Proofs.Doubles.Plan

/-!
The types that mocks declare. A package declares none of them twice just when the names that its
methods go by differ even without their capitals.
-/

namespace StandIn.Doubles

open Code Modules

-- What a type is for tells how its name ends.
inductive Use where
  | mocker
  | expectations
  | implementation
  | expectation
  | input
  | output
  deriving DecidableEq

namespace Use

def ending : Use → String
  | mocker         => "Mocker"
  | expectations   => "Expectations"
  | implementation => "Impl"
  | expectation    => "Expectation"
  | input          => "Input"
  | output         => "Output"

def name (use : Use × String) : String :=
  use.2 ++ use.1.ending

-- The last four letters tell all endings apart.
theorem ending_inj {u v : Use}
    (h : u.ending.toList.reverse.take 4 = v.ending.toList.reverse.take 4) : u = v := by
  revert h
  cases u <;> cases v <;> decide

theorem name_injective : Function.Injective name := by
  intro ⟨u, m⟩ ⟨v, n⟩ h
  have hl (u : Use) (m : String) :
      (name (u, m)).toList.reverse.take 4 = u.ending.toList.reverse.take 4 := by
    have h4 : 4 ≤ u.ending.toList.reverse.length := by cases u <;> decide
    rw [name, String.toList_append, List.reverse_append, List.take_append_of_le_length h4]
  have huv : u = v := ending_inj (by rw [← hl u m, ← hl v n, h])
  subst huv
  have hmn : m = n := by
    have ht := congrArg String.toList h
    simpa [name, String.toList_inj] using ht
  rw [hmn]

end Use

def recordName? : Code.Decl → Option String
  | .record r => some r.name
  | .func _   => none

def recordNames (ds : List Code.Decl) : List String :=
  ds.filterMap recordName?

theorem recordNames_append (ds es : List Code.Decl) :
    recordNames (ds ++ es) = recordNames ds ++ recordNames es := by
  simp [recordNames]

theorem recordNames_funcs {α : Type} (as : List α) (g : α → Func) :
    recordNames (as.map fun a => .func (g a)) = [] := by
  simp [recordNames, recordName?]

-- What methods are called after, each given with its interface. A name that one before has got is
-- put behind the name of the interface.
def bases (taken : List String) : List (String × String) → List String
  | []                        => []
  | (interface, method) :: ms =>
    let base := if method ∈ taken then interface ++ method else method
    base :: bases (base :: taken) ms

theorem bases_append (taken : List String) (ms ns : List (String × String)) :
    bases taken (ms ++ ns) = bases taken ms ++ bases ((bases taken ms).reverse ++ taken) ns := by
  induction ms generalizing taken
  case nil          => rfl
  case cons m ms hi => simp [bases, hi]

-- The methods of interfaces, each with its interface.
def methodsOf (is : List Mocked) : List (String × String) :=
  is.flatMap fun i => i.methods.map fun m => (i.name, m.name)

-- The names claimed are those that have been taken.
def Claims (claimed : NameSet) (taken : List String) : Prop :=
  ∀ n, n ∈ claimed ↔ n ∈ taken

-- The types of an interface, and those of a method.
def interfaceUses (i : Mocked) : List (Use × String) :=
  [(.mocker, i.name), (.expectations, i.name), (.implementation, i.name)]

def lower (base : String) : String :=
  (Name.unexport? base).getD ""

def methodUses (base : String) : List (Use × String) :=
  [(.expectation, base), (.input, lower base), (.output, lower base)]

-- A method whose types are called after a name.
structure Named (base : String) (m : MockMethod) : Prop where
  lower       : (Name.unexport? base).isSome
  expectation : m.expectation = Use.name (.expectation, base)
  input       : m.input = Use.name (.input, Doubles.lower base)
  output      : m.output = Use.name (.output, Doubles.lower base)

theorem unexport_eq_ok {name l : String} (h : Name.unexport name = .ok l) :
    Name.unexport? name = some l := by
  unfold Name.unexport at h
  split at h
  case h_1 hl => exact Except.ok.inj h ▸ hl
  case h_2    => contradiction

variable {claimed claimed' : NameSet} {taken : List String}

theorem claim_eq (h : Claims claimed taken) (interface method : String) :
    let base := if method ∈ taken then interface ++ method else method
    (claim interface method claimed).1 = base ∧
      Claims (claim interface method claimed).2 (base :: taken) := by
  have hi (base : String) : Claims (claimed.insert base) (base :: taken) := fun n => by
    rw [NameSet.mem_insert, List.mem_cons, h n]
  intro base
  by_cases hm : method ∈ taken
  case pos => simpa [claim, base, hm, (h method).mpr hm] using hi _
  case neg => simpa [claim, base, hm, (h method).not.mpr hm] using hi _

theorem planAll_ok {interface qualifier : String} {fields : Name.Scope} {ms : List Method}
    {plans : List MockMethod} (hc : Claims claimed taken)
    (h : (MockMethod.planAll interface qualifier fields ms).run claimed = (.ok plans, claimed')) :
    let bs := bases taken (ms.map fun m => (interface, m.name))
    List.Forall₂ Named bs plans ∧ Claims claimed' (bs.reverse ++ taken) := by
  induction ms generalizing fields claimed taken plans
  case nil =>
    have ⟨hp, hs⟩ := Effect.run_pure_eq_ok.mp h
    exact ⟨hp ▸ .nil, hs ▸ hc⟩
  case cons m ms hi =>
    have ⟨plan, rest, hp, ho, hr⟩ := MockMethod.planAll_cons h
    have ⟨hb, hclaims⟩ := claim_eq hc interface m.name
    have ⟨hplans, hclaims⟩ := hi hclaims hr
    rw [hb] at ho
    have ⟨low, hl, hi, hu⟩ := ho.records
    have hl := unexport_eq_ok hl
    simp only [List.map_cons, bases, List.reverse_cons, List.append_assoc, List.singleton_append, hp]
    refine ⟨.cons ?_ hplans, hclaims⟩
    constructor
    case lower       => simp [hl]
    case expectation => exact ho.expectation
    case input       => simp [hi, hl, lower, Use.name, Use.ending]
    case output      => simp [hu, hl, lower, Use.name, Use.ending]

theorem recordNames_expectationDecls {base : String} {m : MockMethod} (h : Named base m) :
    (recordNames m.expectationDecls).Perm ((methodUses base).map Use.name) := by
  have hr : recordNames m.expectationDecls = [m.input, m.output, m.expectation] := rfl
  rw [hr, h.input, h.output, h.expectation]
  exact @List.perm_append_comm _ [_, _] [_]

theorem recordNames_plans {bs : List String} {plans : List MockMethod}
    (h : List.Forall₂ Named bs plans) :
    (recordNames (plans.flatMap MockMethod.expectationDecls)).Perm
      ((bs.flatMap methodUses).map Use.name) := by
  induction h
  case nil => exact .nil
  case cons b m bs plans hb _ hi =>
    rw [List.flatMap_cons, List.flatMap_cons, recordNames_append, List.map_append]
    exact (recordNames_expectationDecls hb).append hi

theorem lowers_of_named {bs : List String} {plans : List MockMethod}
    (h : List.Forall₂ Named bs plans) : ∀ b ∈ bs, (Name.unexport? b).isSome := by
  induction h
  case nil             => exact fun _ h => nomatch h
  case cons hb _ hi => exact List.forall_mem_cons.mpr ⟨hb.lower, hi⟩

theorem recordNames_cons (d : Code.Decl) (ds : List Code.Decl) :
    recordNames (d :: ds) = (recordName? d).toList ++ recordNames ds := by
  rw [recordNames, List.filterMap_cons]
  cases recordName? d <;> rfl

theorem recordNames_declsOf (i : Mocked) (qualifier : String) (s : Value.Settings)
    {bs : List String} {plans : List MockMethod} (h : List.Forall₂ Named bs plans) :
    (recordNames (i.declsOf qualifier s plans)).Perm
      ((interfaceUses i ++ bs.flatMap methodUses).map Use.name) := by
  have hd : recordNames (i.declsOf qualifier s plans) =
      i.mocker :: i.expectations ::
        (recordNames (plans.flatMap MockMethod.expectationDecls) ++ [i.implementation]) := by
    simp only [Mocked.declsOf, recordNames_append, recordNames_funcs, recordNames_cons, recordName?]
    simp [recordNames, Mocked.mockerRecord, Mocked.expectationsRecord, Mocked.implementationRecord]
  rw [hd, List.map_append]
  exact .cons _ (.cons _ (List.perm_append_comm.trans (.cons _ (recordNames_plans h))))

-- What is known when interfaces have been declared, one after another.
structure Declared (taken : List String) (is : List Mocked) (ds : List Code.Decl)
    (claimed : NameSet) : Prop where
  names  : (recordNames ds).Perm
    ((is.flatMap interfaceUses ++ (bases taken (methodsOf is)).flatMap methodUses).map Use.name)
  lowers : ∀ b ∈ bases taken (methodsOf is), (Name.unexport? b).isSome
  claims : Claims claimed ((bases taken (methodsOf is)).reverse ++ taken)

namespace Declared

theorem nil (h : Claims claimed taken) : Declared taken [] [] claimed where
  names  := .nil
  lowers := fun _ h => nomatch h
  claims := h

theorem append {is js : List Mocked} {ds es : List Code.Decl} (h : Declared taken is ds claimed)
    (k : Declared ((bases taken (methodsOf is)).reverse ++ taken) js es claimed') :
    Declared taken (is ++ js) (ds ++ es) claimed' := by
  have hm : methodsOf (is ++ js) = methodsOf is ++ methodsOf js := List.flatMap_append
  constructor
  case names =>
    rw [recordNames_append, hm, bases_append, List.flatMap_append, List.flatMap_append]
    refine (h.names.append k.names).trans ?_
    rw [← List.map_append]
    refine .map _ ?_
    simp only [List.append_assoc]
    exact .append_left _ (List.perm_append_comm_assoc ..)
  case lowers =>
    rw [hm, bases_append, List.forall_mem_append]
    exact ⟨h.lowers, k.lowers⟩
  case claims =>
    rw [hm, bases_append, List.reverse_append, List.append_assoc]
    exact k.claims

theorem of_decls {i : Mocked} {qualifier : String} {s : Value.Settings} {ds : List Code.Decl}
    (hc : Claims claimed taken) (h : (i.decls qualifier s).run claimed = (.ok ds, claimed')) :
    Declared taken [i] ds claimed' := by
  have ⟨plans, c, hp, h⟩ := Effect.run_bind_eq_ok.mp h
  have ⟨hd, hs⟩ := Effect.run_pure_eq_ok.mp h
  have ⟨hn, hc⟩ := planAll_ok hc (hs ▸ hp)
  have hm : methodsOf [i] = i.methods.map fun m => (i.name, m.name) := List.flatMap_singleton ..
  constructor
  case names =>
    rw [← hd, hm, List.flatMap_singleton]
    exact recordNames_declsOf i qualifier s hn
  case lowers =>
    rw [hm]
    exact lowers_of_named hn
  case claims => exact hm ▸ hc

theorem of_mapM {qualifier : String} {s : Value.Settings} {is : List Mocked}
    {dss : List (List Code.Decl)} (hc : Claims claimed taken)
    (h : Effect.run (is.mapM fun i => i.decls qualifier s) claimed = (.ok dss, claimed')) :
    Declared taken is dss.flatten claimed' := by
  induction is generalizing claimed taken dss
  case nil =>
    have ⟨hd, hs⟩ := Effect.run_pure_eq_ok.mp h
    exact hd ▸ hs ▸ .nil hc
  case cons i is hi =>
    have ⟨ds, c, ess, hd, he, hs⟩ := Effect.run_mapM_cons_eq_ok.mp h
    have hd := of_decls hc hd
    rw [← hs, List.flatten_cons]
    exact hd.append (hi hd.claims he)

end Declared

-- What the mocks of a file declare.
def mockDecls (p : Package) (f : SourceFile) : Effect NameSet (List Code.Decl) := do
  let decls ← (mockedOf f).mapM (·.decls (Name.aliasFor p.name) (mockSettings p f))
  return decls.flatten

theorem Declared.of_mockDecls {p : Package} {f : SourceFile} {ds : List Code.Decl}
    (hc : Claims claimed taken) (h : (mockDecls p f).run claimed = (.ok ds, claimed')) :
    Declared taken (mockedOf f) ds claimed' := by
  have ⟨dss, c, hd, h⟩ := Effect.run_bind_eq_ok.mp h
  have ⟨hf, hs⟩ := Effect.run_pure_eq_ok.mp h
  exact hf ▸ of_mapM hc (hs ▸ hd)

theorem Declared.of_files {p : Package} {fs : List SourceFile} {dss : List (List Code.Decl)}
    (hc : Claims claimed taken)
    (h : Effect.run (fs.mapM (mockDecls p)) claimed = (.ok dss, claimed')) :
    Declared taken (fs.flatMap mockedOf) dss.flatten claimed' := by
  induction fs generalizing claimed taken dss
  case nil =>
    have ⟨hd, hs⟩ := Effect.run_pure_eq_ok.mp h
    exact hd ▸ hs ▸ .nil hc
  case cons f fs hi =>
    have ⟨ds, c, ess, hd, hes, he⟩ := Effect.run_mapM_cons_eq_ok.mp h
    have hp := of_mockDecls hc hd
    rw [← he, List.flatten_cons, List.flatMap_cons]
    exact hp.append (hi hp.claims hes)

-- The text of a file, if there is one, is that of what its mocks declare.
def IsText (p : Package) (ds : List Code.Decl) : Option String → Prop
  | none      => ds = []
  | some text => ∃ imports, text = Code.fileText p.name imports (Code.Decl.text ds)

theorem mockText_ok {p : Package} {f : SourceFile} {text : Option String}
    (h : (mockText p f).run claimed = (.ok text, claimed')) :
    ∃ ds, (mockDecls p f).run claimed = (.ok ds, claimed') ∧ IsText p ds text := by
  simp only [mockText, mocksText] at h
  split at h
  case isTrue he =>
    have ⟨ht, hs⟩ := Effect.run_pure_eq_ok.mp h
    refine ⟨[], ?_, ht ▸ rfl⟩
    rw [mockDecls, List.isEmpty_iff.mp he, hs]
    rfl
  case isFalse =>
    have ⟨dss, c, hd, h⟩ := Effect.run_bind_eq_ok.mp h
    have ⟨ht, hs⟩ := Effect.run_pure_eq_ok.mp h
    refine ⟨dss.flatten, ?_, ht ▸ ⟨_, rfl⟩⟩
    exact Effect.run_bind_eq_ok.mpr ⟨dss, c, hd, Effect.run_pure_eq_ok.mpr ⟨rfl, hs⟩⟩

theorem mapM_mockText_ok {p : Package} {fs : List SourceFile} {texts : List (Option String)}
    (h : Effect.run (fs.mapM (mockText p)) claimed = (.ok texts, claimed')) :
    ∃ dss, Effect.run (fs.mapM (mockDecls p)) claimed = (.ok dss, claimed') ∧
      List.Forall₂ (IsText p) dss texts := by
  induction fs generalizing claimed texts
  case nil =>
    have ⟨ht, hs⟩ := Effect.run_pure_eq_ok.mp h
    exact ⟨[], Effect.run_pure_eq_ok.mpr ⟨rfl, hs⟩, ht ▸ .nil⟩
  case cons f fs hi =>
    have ⟨text, c, ts, ht, hts, he⟩ := Effect.run_mapM_cons_eq_ok.mp h
    have ⟨ds, hd, hp⟩ := mockText_ok ht
    have ⟨dss, hds, hps⟩ := hi hts
    exact ⟨ds :: dss, Effect.run_mapM_cons_eq_ok.mpr ⟨ds, c, dss, hd, hds, rfl⟩,
      he ▸ .cons hp hps⟩

-- What the names of a use are made from.
def stems (is : List Mocked) (bs : List String) : Use → List String
  | .mocker | .expectations | .implementation => is.map Mocked.name
  | .expectation                              => bs
  | .input | .output                          => bs.map lower

def uses : List Use :=
  [.mocker, .expectations, .implementation, .expectation, .input, .output]

theorem flatMap_triple_perm {α β : Type} (f g h : α → β) (as : List α) :
    (as.flatMap fun a => [f a, g a, h a]).Perm (as.map f ++ (as.map g ++ as.map h)) := by
  have hf := List.map_append_flatMap_perm as f fun a => [g a, h a]
  have hg := List.map_append_flatMap_perm as g fun a => [h a]
  rw [← List.map_eq_flatMap] at hg
  exact hf.symm.trans (hg.symm.append_left _)

theorem uses_perm (is : List Mocked) (bs : List String) :
    (is.flatMap interfaceUses ++ bs.flatMap methodUses).Perm
      (uses.flatMap fun u => (stems is bs u).map (u, ·)) := by
  have hi := flatMap_triple_perm (fun i : Mocked => (Use.mocker, i.name))
    (fun i => (.expectations, i.name)) (fun i => (.implementation, i.name)) is
  have hb := flatMap_triple_perm (fun b : String => (Use.expectation, b))
    (fun b => (.input, lower b)) (fun b => (.output, lower b)) bs
  refine (hi.append hb).trans (.of_eq ?_)
  simp [uses, stems, Function.comp_def]

theorem nodup_stems (is : List Mocked) (bs : List String) :
    (uses.flatMap fun u => (stems is bs u).map (u, ·)).Nodup ↔ ∀ u, (stems is bs u).Nodup := by
  have hu (u : Use) : u ∈ uses := by cases u <;> decide
  have hm (u : Use) : Function.Injective (Prod.mk u : String → Use × String) :=
    fun _ _ h => (Prod.mk.inj h).2
  rw [List.nodup_flatMap]
  constructor
  case mp  => exact fun h u => (List.nodup_map_iff (hm u)).mp (h.1 u (hu u))
  case mpr =>
    intro h
    refine ⟨fun u _ => (h u).map (hm u), ?_⟩
    have hd : uses.Nodup := by decide
    refine hd.imp fun {u v} huv => ?_
    intro x hxu hxv
    have ⟨_, _, hu⟩ := List.mem_map.mp hxu
    have ⟨_, _, hv⟩ := List.mem_map.mp hxv
    exact huv (congrArg Prod.fst (hu.trans hv.symm))

-- Names of one use are distinct when what they are made from is, and names of different uses always
-- are.
theorem nodup_uses_iff {is : List Mocked} {bs : List String} (hi : (is.map Mocked.name).Nodup)
    (hb : ∀ b ∈ bs, (Name.unexport? b).isSome) :
    (is.flatMap interfaceUses ++ bs.flatMap methodUses).Nodup ↔
      (bs.map Name.unexport?).Nodup := by
  have hl : bs.map Name.unexport? = (bs.map lower).map some := by
    rw [List.map_map]
    refine List.map_congr_left fun b hm => ?_
    have ⟨l, hs⟩ := Option.isSome_iff_exists.mp (hb b hm)
    simp [lower, hs]
  rw [(uses_perm is bs).nodup_iff, nodup_stems, hl, List.nodup_map_iff fun _ _ => Option.some.inj]
  constructor
  case mp => exact fun h => h .input
  case mpr =>
    intro h u
    cases u
    case expectation     => exact h.of_map lower
    case input | output  => exact h
    all_goals exact hi

-- A package declares no type twice just when the names its methods go by remain distinct in lower
-- case.
theorem nodup_recordNames_iff {p : Package} {fs : List SourceFile} {texts : List (Option String)}
    (h : Effect.run (fs.mapM (mockText p)) ∅ = (.ok texts, claimed))
    (hi : ((fs.flatMap mockedOf).map Mocked.name).Nodup) :
    ∃ dss, Effect.run (fs.mapM (mockDecls p)) ∅ = (.ok dss, claimed) ∧
      List.Forall₂ (IsText p) dss texts ∧
      ((recordNames dss.flatten).Nodup ↔
        ((bases [] (methodsOf (fs.flatMap mockedOf))).map Name.unexport?).Nodup) := by
  have ⟨dss, hd, ht⟩ := mapM_mockText_ok h
  have hc : Claims ∅ [] := fun _ => Iff.rfl
  have hf := Declared.of_files hc hd
  refine ⟨dss, hd, ht, ?_⟩
  rw [hf.names.nodup_iff, List.nodup_map_iff Use.name_injective]
  exact nodup_uses_iff hi hf.lowers

-- A package besides the program.
def library : Package :=
  ⟨"m", "svc", "", "svc", false⟩

-- Two interfaces with a method of the same name.
def lookups : String :=
  "package svc\n\ntype Service interface \x7b\n\tLookup(id string) string\n\x7d\n\n" ++
  "type Cache interface \x7b\n\tLookup(id string) string\n\x7d\n"

theorem nodup_recordNames_iff_lookups :
    ∃ f dss claimed, SourceFile.parse "svc/svc.go" lookups = .ok f ∧
      Effect.run ([f].mapM (mockDecls library)) ∅ = (.ok dss, claimed) ∧
      (recordNames dss.flatten).Nodup := by
  have hp : (match SourceFile.parse "svc/svc.go" lookups with
      | .error _ => false
      | .ok f    =>
        (match Effect.run ([f].mapM (mockText library)) ∅ with
        | (.error _, _) => false
        | (.ok _, _)    => true) &&
        decide (([f].flatMap mockedOf).map Mocked.name).Nodup &&
        decide ((bases [] (methodsOf ([f].flatMap mockedOf))).map Name.unexport?).Nodup) = true := by
    decide +kernel
  split at hp
  case h_1 => exact Bool.noConfusion hp
  case h_2 f hf =>
    simp only [Bool.and_eq_true, decide_eq_true_eq] at hp
    have ⟨⟨hr, hi⟩, hb⟩ := hp
    split at hr
    case h_1 => exact Bool.noConfusion hr
    case h_2 texts claimed he =>
      have ⟨dss, hd, _, hn⟩ := nodup_recordNames_iff he hi
      exact ⟨f, dss, claimed, hf, hd, hn.mpr hb⟩

-- Two methods whose names differ only in their capitals.
def capitals : String :=
  "package svc\n\ntype A interface \x7b\n\tID()\n\x7d\n\ntype B interface \x7b\n\tId()\n\x7d\n"

theorem capitals_declared_twice :
    ∃ f dss claimed, SourceFile.parse "svc/svc.go" capitals = .ok f ∧
      ((mockedOf f).map Mocked.name).Nodup ∧
      (∀ i ∈ mockedOf f, (i.methods.map Method.name).Nodup) ∧
      Effect.run ([f].mapM (mockDecls library)) ∅ = (.ok dss, claimed) ∧
      ¬ (recordNames dss.flatten).Nodup := by
  have hp : (match SourceFile.parse "svc/svc.go" capitals with
      | .error _ => false
      | .ok f    =>
        decide ((mockedOf f).map Mocked.name).Nodup &&
        (mockedOf f).all (fun i => decide (i.methods.map Method.name).Nodup) &&
        match Effect.run ([f].mapM (mockDecls library)) ∅ with
        | (.error _, _) => false
        | (.ok dss, _)  => ! decide (recordNames dss.flatten).Nodup) = true := by
    decide +kernel
  split at hp
  case h_1 => exact Bool.noConfusion hp
  case h_2 f hf =>
    simp only [Bool.and_eq_true, decide_eq_true_eq, List.all_eq_true] at hp
    have ⟨⟨hi, hm⟩, hd⟩ := hp
    split at hd
    case h_1 => exact Bool.noConfusion hd
    case h_2 dss claimed he =>
      exact ⟨f, dss, claimed, hf, hi, hm, he, by simpa using hd⟩

end StandIn.Doubles
