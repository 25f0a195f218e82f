import Mathlib.Data.List.Induction
import StandIn.Proofs.Decoration.Layer

/-!
Which structs interfaces choose, and the signatures that the methods of proxies have: those with
which the structs declare the methods, and those of the interface for the methods that they lack.
-/

namespace StandIn

-- Parameters and results of the same types, whatever their names are.
structure Signature.Agrees (s t : Signature) : Prop where
  params  : s.params.map (fun p => (p.type, p.variadic)) =
    t.params.map fun p => (p.type, p.variadic)
  results : s.results.map Param.type = t.results.map Param.type

theorem Signature.Agrees.refl (s : Signature) : s.Agrees s :=
  ⟨rfl, rfl⟩

namespace Decoration

open Traversal

-- A struct with the highest score of all, and the last one that has it.
def Best (score : String → Nat) (structs : List String) (struct : String) : Prop :=
  ∃ front back, structs = front ++ struct :: back ∧ 0 < score struct ∧
    (∀ s ∈ front, score s ≤ score struct) ∧ ∀ s ∈ back, score s < score struct

namespace Best

variable {score : String → Nat} {structs : List String} {struct other : String}

theorem mem (h : Best score structs struct) : struct ∈ structs := by
  have ⟨_, _, hs, _⟩ := h
  simp [hs]

theorem le (h : Best score structs struct) : ∀ s ∈ structs, score s ≤ score struct := by
  have ⟨front, back, hs, _, hf, hb⟩ := h
  rw [hs, List.forall_mem_append, List.forall_mem_cons]
  exact ⟨hf, Nat.le_refl _, fun s hs => Nat.le_of_lt (hb s hs)⟩

theorem keep (h : Best score structs struct) (hs : score other < score struct) :
    Best score (structs ++ [other]) struct := by
  have ⟨front, back, he, hp, hf, hb⟩ := h
  refine ⟨front, back ++ [other], by simp [he], hp, hf, ?_⟩
  rw [List.forall_mem_append, List.forall_mem_singleton]
  exact ⟨hb, hs⟩

theorem last (hp : 0 < score struct) (hs : ∀ s ∈ structs, score s ≤ score struct) :
    Best score (structs ++ [struct]) struct :=
  ⟨structs, [], rfl, hp, hs, fun _ h => nomatch h⟩

end Best

namespace LayerFile

variable {l : LayerFile} {methods : List Method}

-- What the best so far is, when no struct has been good, and when one has.
def Found (score : String → Nat) (structs : List String) : Option String → Prop
  | none        => ∀ s ∈ structs, score s = 0
  | some struct => Best score structs struct

theorem found_better {structs : List String} {best : Option String}
    (h : Found (l.score methods) structs best) (struct : String) :
    Found (l.score methods) (structs ++ [struct]) (l.better methods best struct) := by
  by_cases hz : l.score methods struct = 0
  case pos =>
    have hb : l.better methods best struct = best := by simp [better, hz]
    rw [hb]
    cases best
    case none => exact List.forall_mem_append.mpr ⟨h, List.forall_mem_singleton.mpr hz⟩
    case some other =>
      have ⟨_, _, _, hp, _⟩ := h
      exact Best.keep h (hz ▸ hp)
  case neg =>
    have hp : 0 < l.score methods struct := Nat.pos_of_ne_zero hz
    cases best
    case none =>
      have hb : l.better methods none struct = some struct := by simp [better, hz]
      exact hb ▸ Best.last hp fun s hs => h s hs ▸ Nat.zero_le _
    case some other =>
      have hb : l.better methods (some other) struct =
          if l.score methods other ≤ l.score methods struct then some struct else some other := by
        simp [better, hz]
      rw [hb]
      split
      case isTrue hl  => exact Best.last hp fun s hs => Nat.le_trans (Best.le h s hs) hl
      case isFalse hl => exact Best.keep h (Nat.lt_of_not_le hl)

theorem found_implementing? (l : LayerFile) (methods : List Method) (taken : List String) :
    Found (l.score methods) (l.structs.filter (! taken.contains ·))
      (l.implementing? methods taken) := by
  unfold implementing?
  induction l.structs.filter (! taken.contains ·) using List.reverseRecOn
  case nil => exact fun _ h => nomatch h
  case append_singleton structs struct hi =>
    rw [List.foldl_concat]
    exact found_better hi struct

-- A proxy stands for an interface, and for the best struct that the proxies before have left.
structure Stands (l : LayerFile) (taken : List String) (interfaces : List (String × List Method))
    (p : Proxy) (methods : List Method) : Prop where
  interface : (p.interface, methods) ∈ interfaces
  exported  : methods.all fun m => Name.isExported m.name
  best      : Best (l.score methods) (l.structs.filter (! taken.contains ·)) p.struct
  methods   : p.methods = methods.map (l.proxyMethod p.struct)

theorem stands_of_proxiesWithout {p : Proxy} {interfaces : List (String × List Method)}
    {taken : List String} {before after : List Proxy}
    (h : l.proxiesWithout taken interfaces = before ++ p :: after) :
    ∃ methods, l.Stands ((before.map Proxy.struct).reverse ++ taken) interfaces p methods := by
  induction interfaces generalizing taken before
  case nil => simp [proxiesWithout] at h
  case cons i is hi =>
    have later {taken : List String} {before : List Proxy}
        (h : l.proxiesWithout taken is = before ++ p :: after) :
        ∃ methods, l.Stands ((before.map Proxy.struct).reverse ++ taken) (i :: is) p methods := by
      obtain ⟨methods, hs⟩ := hi h
      exact ⟨methods, { hs with interface := List.mem_cons_of_mem _ hs.interface }⟩
    obtain ⟨name, methods⟩ := i
    simp only [proxiesWithout] at h
    split at h
    case isFalse => exact later h
    case isTrue he =>
      have hf := found_implementing? l methods taken
      split at h
      case h_2 => exact later h
      case h_1 struct hs =>
        cases before
        case nil =>
          obtain ⟨hp, _⟩ := List.cons.inj h
          rw [hs] at hf
          exact ⟨methods, hp ▸ {
            interface := List.mem_cons_self
            exported  := he
            best      := hf
            methods   := rfl }⟩
        case cons q before =>
          obtain ⟨hq, h⟩ := List.cons.inj h
          have ht : ((q :: before).map Proxy.struct).reverse ++ taken =
              (before.map Proxy.struct).reverse ++ struct :: taken := by
            simp [← hq, proxyOf]
          exact ht ▸ later h

-- The first method of a name that the file declares for a struct.
theorem methodOf?_eq_some {struct name : String} {d : FuncDecl}
    (h : l.methodOf? struct name = some d) :
    d ∈ l.funcs ∧ d.name = name ∧ d.receiverType? = some struct ∧ d.typeParams = none := by
  have hd := List.find?_some h
  simp only [Bool.and_eq_true, beq_iff_eq, Option.isNone_iff_eq_none] at hd
  exact ⟨List.mem_of_find?_eq_some h, hd.1.1, hd.1.2, hd.2⟩

theorem signature_proxyMethod (struct : String) (m : Method) :
    (l.proxyMethod struct m).signature =
      ((l.methodOf? struct m.name).map FuncDecl.signature).getD m.signature := by
  unfold proxyMethod
  split
  case h_1 hd => rw [hd]; rfl
  case h_2 hd => rw [hd]; rfl

theorem name_proxyMethod (struct : String) (m : Method) :
    (l.proxyMethod struct m).name = m.name := by
  unfold proxyMethod
  split <;> rfl

theorem agrees_proxyMethod {struct : String} {m : Method} :
    (l.proxyMethod struct m).signature.Agrees m.signature ↔
      ∀ d, l.methodOf? struct m.name = some d → d.signature.Agrees m.signature := by
  rw [signature_proxyMethod]
  cases l.methodOf? struct m.name
  case none   => simpa using .refl m.signature
  case some d => simp

theorem of_mem_proxies {p : Proxy} (h : p ∈ l.proxies) :
    ∃ taken methods, l.Stands taken l.interfaces p methods := by
  have ⟨before, after, h⟩ := List.append_of_mem h
  have ⟨methods, hs⟩ := stands_of_proxiesWithout h
  exact ⟨_, methods, hs⟩

-- Some method of the interface is one that the struct declares.
theorem Stands.declares {p : Proxy} {taken : List String} {is : List (String × List Method)}
    (h : l.Stands taken is p methods) :
    p.struct ∈ l.structs ∧ ∃ m ∈ methods, (l.methodOf? p.struct m.name).isSome := by
  have hm := List.mem_filter.mp h.best.mem
  have ⟨_, _, _, hp, _⟩ := h.best
  exact ⟨hm.1, List.countP_pos_iff.mp hp⟩

end LayerFile

-- An interface that a file shows to observers, if proxies are made for it.
def IsInterface (f : SourceFile) (name : String) (methods : List Method) : Prop :=
  ∃ d, Part.interface d methods [] ∈ Part.ofFile f ∧ d.name = name ∧ Name.isExported name ∧
    d.isGeneric = false

theorem isInterface_of_mem {f : SourceFile} {name : String} {methods : List Method}
    (h : (name, methods) ∈ (LayerFile.ofFile f).interfaces) : IsInterface f name methods := by
  have ⟨p, hp, h⟩ := List.mem_filterMap.mp h
  cases p <;> simp only [LayerFile.interfaceOf?, reduceCtorEq] at h
  case interface d ms embeds =>
    have ⟨hc, h⟩ := Option.ite_none_right_eq_some.mp h
    have ⟨hn, hm⟩ := Prod.mk.inj (Option.some.inj h)
    simp only [Bool.and_eq_true, Bool.not_eq_true', List.isEmpty_iff] at hc
    exact ⟨d, hm ▸ hc.2 ▸ hp, hn, hn ▸ hc.1.1, hc.1.2⟩

-- The methods of a proxy are those of its interface. One that the struct does not declare has the
-- signature of the interface, and one that it does has the one declared. So the proxy has all
-- types of the interface where the struct does not depart from them.
theorem signatures_of_proxies {f : SourceFile} {p : Proxy}
    (h : p ∈ (LayerFile.ofFile f).proxies) :
    ∃ methods, IsInterface f p.interface methods ∧
      (∃ m ∈ methods, ((LayerFile.ofFile f).methodOf? p.struct m.name).isSome) ∧
      List.Forall₂ (fun m q => q.name = m.name ∧
          q.signature = (((LayerFile.ofFile f).methodOf? p.struct m.name).map
            FuncDecl.signature).getD m.signature) methods p.methods ∧
      (List.Forall₂ (fun m q => q.signature.Agrees m.signature) methods p.methods ↔
        ∀ m ∈ methods, ∀ d, (LayerFile.ofFile f).methodOf? p.struct m.name = some d →
          d.signature.Agrees m.signature) := by
  have ⟨_, methods, hs⟩ := LayerFile.of_mem_proxies h
  refine ⟨methods, isInterface_of_mem hs.interface, hs.declares.2, ?_, ?_⟩
  case _ =>
    rw [hs.methods, List.forall₂_map_right_iff, List.forall₂_same]
    exact fun m _ => ⟨LayerFile.name_proxyMethod _ m, LayerFile.signature_proxyMethod _ m⟩
  case _ =>
    rw [hs.methods, List.forall₂_map_right_iff, List.forall₂_same]
    exact forall₂_congr fun m _ => LayerFile.agrees_proxyMethod

-- A struct that has one of two methods, with other names for its parameters.
def partialStore : String :=
  "package handler\n\ntype Store interface \x7b\n\tGet(string) string\n\tPut(key, value string)\n\x7d\n\n" ++
  "type store struct\x7b\x7d\n\nfunc (s *store) Get(k string) string \x7b return k \x7d\n"

theorem signatures_of_proxies_partialStore :
    ∃ f p methods, SourceFile.parse "handler/handler.go" partialStore = .ok f ∧
      p ∈ (LayerFile.ofFile f).proxies ∧ p.methods.length = 2 ∧
      IsInterface f p.interface methods ∧
      List.Forall₂ (fun (m : Method) (q : ProxyMethod) => q.name = m.name) methods p.methods := by
  have hp : (match SourceFile.parse "handler/handler.go" partialStore with
      | .error _ => false
      | .ok f    => (LayerFile.ofFile f).proxies.any fun p => p.methods.length == 2) = true := by
    decide +kernel
  split at hp
  case h_1 => exact Bool.noConfusion hp
  case h_2 f hf =>
    have ⟨p, hp, hl⟩ := List.any_eq_true.mp hp
    have ⟨methods, hi, _, hm, _⟩ := signatures_of_proxies hp
    exact ⟨f, p, methods, hf, hp, beq_iff_eq.mp hl, hi, hm.imp fun _ _ h => h.1⟩

-- A struct whose method takes something else than the interface says.
def otherDoor : String :=
  "package handler\n\ntype Door interface \x7b\n\tOpen(key string)\n\x7d\n\n" ++
  "type door struct\x7b\x7d\n\nfunc (d *door) Open(key int) \x7b\x7d\n"

theorem otherDoor_disagrees :
    ∃ f, SourceFile.parse "handler/handler.go" otherDoor = .ok f ∧
      ∃ p ∈ (LayerFile.ofFile f).proxies, ∃ methods,
        (p.interface, methods) ∈ (LayerFile.ofFile f).interfaces ∧
        ∃ m ∈ methods, ∃ q ∈ p.methods, q.name = m.name ∧ ¬ q.signature.Agrees m.signature := by
  let types (s : Signature) : List String := s.params.map (·.type.text)
  have hp : (match SourceFile.parse "handler/handler.go" otherDoor with
      | .error _ => false
      | .ok f    => (LayerFile.ofFile f).proxies.any fun p =>
        (LayerFile.ofFile f).interfaces.any fun i => i.1 == p.interface &&
          i.2.any fun m => p.methods.any fun q => q.name == m.name &&
            types q.signature != types m.signature) = true := by
    decide +kernel
  split at hp
  case h_1 => exact Bool.noConfusion hp
  case h_2 f hf =>
    simp only [List.any_eq_true, Bool.and_eq_true, beq_iff_eq, bne_iff_ne] at hp
    have ⟨p, hp, i, hi, hn, m, hm, q, hq, hqm, ht⟩ := hp
    refine ⟨f, hf, p, hp, i.2, hn ▸ hi, m, hm, q, hq, hqm, fun ha => ht ?_⟩
    have he := congrArg (List.map fun x : TypeExpr × Bool => x.1.text) ha.params
    simpa [types, Function.comp_def] using he

end Decoration

end StandIn
