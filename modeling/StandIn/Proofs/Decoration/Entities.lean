import StandIn.Proofs.Code.Decl
import StandIn.Proofs.Decoration.Pairing
import StandIn.Proofs.Doubles.Names
import StandIn.Proofs.Draft.Written
import StandIn.Proofs.Traversal.TopName

/-!
What the proxies of a package declare: for every proxy its struct, the methods of that, and
functions that construct it. Nothing is declared twice, in one file or in several.
-/

namespace StandIn

open Modules Traversal
open Code.Decl (entity entities entities_append)

namespace Decoration

namespace Proxy

def entities (p : Proxy) : List (Option String × String) :=
  (none, p.struct) :: (p.constructors.map fun c => (none, c.name)) ++
    p.methods.map fun m => (some p.struct, m.name)

theorem mem_entities {p : Proxy} {e : Option String × String} :
    e ∈ p.entities ↔ e = (none, p.struct) ∨ (∃ c ∈ p.constructors, (none, c.name) = e) ∨
      ∃ m ∈ p.methods, (some p.struct, m.name) = e := by
  simp [entities]

end Proxy

variable {qualifier struct : String}

theorem entities_constructors {cs : List Constructor} {fs : List Code.Func}
    (h : cs.mapM (·.decl struct qualifier) = .ok fs) :
    entities (fs.map .func) = cs.map fun c => (none, c.name) := by
  rw [entities, List.map_map]
  refine Failure.map_eq_of_mapM (fun c f hc => ?_) h
  obtain ⟨hr, hn⟩ := Constructor.decl_ok hc
  simp [entity, Code.Func.baseName?, hr, hn]

theorem entities_methods {ms : List ProxyMethod} {fs : List Code.Func}
    (h : ms.mapM (·.decl struct qualifier) = .ok fs) :
    entities (fs.map .func) = ms.map fun m => (some struct, m.name) := by
  rw [entities, List.map_map]
  refine Failure.map_eq_of_mapM (fun m f hm => ?_) h
  obtain ⟨_, -, hm⟩ := Failure.bind_eq_ok.mp hm
  obtain ⟨receiver, -, hm⟩ := Failure.bind_eq_ok.mp hm
  have hr : f.receiver = some (receiver, "*" ++ struct) ∧ f.name = m.name := by
    obtain rfl := Except.ok.inj hm
    exact ⟨rfl, rfl⟩
  exact Prod.ext (Code.Func.baseName?_pointer hr.1) hr.2

theorem Proxy.entities_decls {p : Proxy} {ds : List Code.Decl} (h : p.decls qualifier = .ok ds) :
    Code.Decl.entities ds = p.entities := by
  obtain ⟨cs, hc, h⟩ := Failure.bind_eq_ok.mp h
  obtain ⟨ms, hm, h⟩ := Failure.bind_eq_ok.mp h
  obtain rfl := Except.ok.inj h
  rw [← List.singleton_append, List.map_append, entities_append, entities_append,
    entities_constructors hc, entities_methods hm]
  rfl

theorem entities_mapM_decls {ps : List Proxy} {dss : List (List Code.Decl)}
    (h : ps.mapM (·.decls qualifier) = .ok dss) :
    entities dss.flatten = ps.flatMap Proxy.entities := by
  rw [entities, List.map_flatten, ← List.flatMap_def]
  exact Failure.flatMap_eq_of_mapM (fun _ _ => Proxy.entities_decls) h

theorem entities_proxiesDraft {p : Package} {f : SourceFile} {d : Draft}
    (h : proxiesDraft p f = .ok d) :
    entities d.decls = (LayerFile.ofFile f).proxies.flatMap Proxy.entities := by
  rw [proxiesDraft] at h
  dsimp only at h
  split at h
  case isTrue he =>
    obtain rfl := Except.ok.inj h
    rw [List.isEmpty_iff.mp he]
    rfl
  case isFalse =>
    obtain ⟨dss, hd, h⟩ := Failure.bind_eq_ok.mp h
    obtain rfl := Except.ok.inj h
    exact entities_mapM_decls hd

theorem entities_mapM_proxiesDraft {p : Package} {fs : List SourceFile} {drafts : List Draft}
    (h : fs.mapM (proxiesDraft p) = .ok drafts) :
    entities (drafts.flatMap Draft.decls) =
      fs.flatMap fun f => (LayerFile.ofFile f).proxies.flatMap Proxy.entities := by
  rw [entities, List.map_flatMap]
  exact Failure.flatMap_eq_of_mapM (fun _ _ => entities_proxiesDraft) h

namespace LayerFile

variable {f : SourceFile}

theorem interfaces_sublist_topNames (f : SourceFile) :
    ((ofFile f).interfaces.map Prod.fst).Sublist f.topNames := by
  refine Part.select_sublist (fun p i hi => ?_) f
  unfold interfaceOf? at hi
  split at hi
  case h_2 => contradiction
  case h_1 d methods embeds =>
    obtain ⟨-, hi⟩ := Option.ite_none_right_eq_some.mp hi
    exact Option.some.inj hi ▸ rfl

theorem structs_sublist_topNames (f : SourceFile) : (ofFile f).structs.Sublist f.topNames := by
  rw [← List.map_id (ofFile f).structs]
  refine Part.select_sublist (fun p s hs => ?_) f
  unfold structOf? at hs
  split at hs
  case h_2 => contradiction
  case h_1 d fields =>
    obtain ⟨-, hs⟩ := Option.ite_none_right_eq_some.mp hs
    exact Option.some.inj hs ▸ rfl

theorem unexported_of_mem_structs {s : String} (h : s ∈ (ofFile f).structs) :
    ¬ Name.isExported s := by
  obtain ⟨p, -, h⟩ := List.mem_filterMap.mp h
  unfold structOf? at h
  split at h
  case h_2 => contradiction
  case h_1 d fields =>
    obtain ⟨hd, h⟩ := Option.ite_none_right_eq_some.mp h
    obtain rfl := Option.some.inj h
    simp only [Bool.and_eq_true, Bool.not_eq_true'] at hd
    simp [hd.1]

theorem funcs_sublist_topNames (f : SourceFile) :
    (((ofFile f).funcs.filter (·.receiver.isNone)).map FuncDecl.name).Sublist f.topNames := by
  have hf : (ofFile f).funcs.filter (·.receiver.isNone) =
      (Part.ofFile f).filterMap fun p => (funcOf? p).filter (·.receiver.isNone) :=
    List.filter_filterMap ..
  rw [hf]
  refine Part.select_sublist (fun p d hd => ?_) f
  obtain ⟨hd, hr⟩ := Option.filter_eq_some_iff.mp hd
  unfold funcOf? at hd
  split at hd
  case h_2 => contradiction
  case h_1 e =>
    obtain rfl := Option.some.inj hd
    exact if_pos hr

theorem isLocal_unique {t : TypeExpr} {m n : String} (hm : t.isLocal m) (hn : t.isLocal n) :
    m = n := by
  unfold TypeExpr.isLocal at hm hn
  split at hm
  case h_2 => contradiction
  case h_1 => exact (beq_iff_eq.mp hm).symm.trans (beq_iff_eq.mp hn)

-- A function constructs values of one interface only.
theorem returns_unique {m n : String} {results : List Param}
    (hm : constructorsOf.returns m results) (hn : constructorsOf.returns n results) : m = n := by
  unfold constructorsOf.returns at hm hn
  split at hm
  case h_1 => exact isLocal_unique hm hn
  case h_2 =>
    simp only [Bool.and_eq_true] at hm hn
    exact isLocal_unique hm.1 hn.1
  case h_3 => contradiction

theorem constructors_sublist_topNames (f : SourceFile) (interface : String) :
    (((ofFile f).constructorsOf interface).map Constructor.name).Sublist f.topNames := by
  refine .trans ?_ (funcs_sublist_topNames f)
  rw [constructorsOf, ← List.filterMap_eq_map (f := FuncDecl.name), ← List.filterMap_eq_filter,
    List.filterMap_filterMap]
  refine map_filterMap_sublist (fun d c h => ?_) _
  obtain ⟨hd, hc⟩ := Option.ite_none_right_eq_some.mp h
  obtain rfl := Option.some.inj hc
  simp only [Bool.and_eq_true] at hd
  simp [hd.1.1.1, Option.guard]

theorem nodup_entities {p : Proxy} (hn : f.topNames.Nodup)
    (hm : ∀ i ∈ (ofFile f).interfaces, (i.2.map Method.name).Nodup)
    (hp : p ∈ (ofFile f).proxies) : p.entities.Nodup := by
  obtain ⟨taken, methods, hs⟩ := of_mem_proxies hp
  rw [Proxy.entities, List.cons_append, List.nodup_cons, List.nodup_append]
  refine ⟨fun h => ?_, ?_, ?_, ?_⟩
  case refine_1 =>
    rcases List.mem_append.mp h with h | h
    case inl =>
      obtain ⟨c, hc, he⟩ := List.mem_map.mp h
      have hx := (constructors_of_mem_proxies hp hc).1
      rw [(Prod.mk.inj he).2] at hx
      exact unexported_of_mem_structs hs.declares.1 hx
    case inr => simp at h
  case refine_2 =>
    have hc := (constructors_sublist_topNames f p.interface).nodup hn
    rw [← constructors_of_mem_proxiesWithout hp] at hc
    exact List.map_map ▸ hc.map (Prod.mk_right_injective none)
  case refine_3 =>
    have hms : p.methods.map ProxyMethod.name = methods.map Method.name := by
      rw [hs.methods, List.map_map]
      exact List.map_congr_left fun m _ => name_proxyMethod p.struct m
    have hd := hms ▸ hm _ hs.interface
    exact List.map_map ▸ hd.map (Prod.mk_right_injective (some p.struct))
  case refine_4 =>
    intro a ha b hb
    obtain ⟨c, -, rfl⟩ := List.mem_map.mp ha
    obtain ⟨m, -, rfl⟩ := List.mem_map.mp hb
    simp

-- The function that constructs something is known by its name.
theorem interface_of_constructor {p q : Proxy} {c d : Constructor} (hn : f.topNames.Nodup)
    (hp : p ∈ (ofFile f).proxies) (hq : q ∈ (ofFile f).proxies) (hc : c ∈ p.constructors)
    (hd : d ∈ q.constructors) (he : c.name = d.name) : p.interface = q.interface := by
  have hc := List.mem_map_of_mem (f := Constructor.name) hc
  have hd := List.mem_map_of_mem (f := Constructor.name) hd
  rw [constructors_of_mem_proxiesWithout hp, mem_constructorsOf] at hc
  rw [constructors_of_mem_proxiesWithout hq, mem_constructorsOf] at hd
  obtain ⟨g, hg, hgn, hgr, -, -, hgs⟩ := hc
  obtain ⟨h, hh, hhn, hhr, -, -, hhs⟩ := hd
  have hu := List.inj_on_of_nodup_map ((funcs_sublist_topNames f).nodup hn)
    (List.mem_filter.mpr ⟨hg, Option.isNone_iff_eq_none.mpr hgr⟩)
    (List.mem_filter.mpr ⟨hh, Option.isNone_iff_eq_none.mpr hhr⟩)
    ((hgn.trans he).trans hhn.symm)
  exact returns_unique hgs (hu ▸ hhs)

theorem disjoint_entities {p q : Proxy} (hn : f.topNames.Nodup)
    (hp : p ∈ (ofFile f).proxies) (hq : q ∈ (ofFile f).proxies)
    (hs : p.struct ≠ q.struct) (hi : p.interface ≠ q.interface) :
    p.entities.Disjoint q.entities := by
  -- A struct is not called like a function that constructs something.
  have apart {p q : Proxy} (hp : p ∈ (ofFile f).proxies) (hq : q ∈ (ofFile f).proxies) :
      ∀ c ∈ q.constructors, c.name ≠ p.struct := by
    intro c hc he
    obtain ⟨_, _, hs⟩ := of_mem_proxies hp
    exact unexported_of_mem_structs hs.declares.1 (he ▸ (constructors_of_mem_proxies hq hc).1)
  intro e he he'
  rw [Proxy.mem_entities] at he he'
  rcases he with rfl | ⟨c, hc, rfl⟩ | ⟨m, hm, rfl⟩
  case inl =>
    rcases he' with he' | ⟨d, hd, he'⟩ | ⟨k, -, he'⟩
    case inl => exact hs (Prod.mk.inj he').2
    case inr.inl => exact apart hp hq d hd (Prod.mk.inj he').2
    case inr.inr => simp at he'
  case inr.inl =>
    rcases he' with he' | ⟨d, hd, he'⟩ | ⟨k, -, he'⟩
    case inl => exact apart hq hp c hc (Prod.mk.inj he').2
    case inr.inl =>
      exact hi (interface_of_constructor hn hp hq hc hd (Prod.mk.inj he').2.symm)
    case inr.inr => simp at he'
  case inr.inr =>
    rcases he' with he' | ⟨d, -, he'⟩ | ⟨k, -, he'⟩
    case inl => simp at he'
    case inr.inl => simp at he'
    case inr.inr => exact hs (Option.some.inj (Prod.mk.inj he').1).symm

theorem nodup_entities_proxies (hn : f.topNames.Nodup)
    (hm : ∀ i ∈ (ofFile f).interfaces, (i.2.map Method.name).Nodup) :
    ((ofFile f).proxies.flatMap Proxy.entities).Nodup := by
  rw [List.nodup_flatMap]
  refine ⟨fun p hp => nodup_entities hn hm hp, ?_⟩
  have hs := List.pairwise_map.mp (ofFile f).nodup_structs
  have hi := List.pairwise_map.mp (((ofFile f).interfaces_sublist.trans
    (interfaces_sublist_topNames f)).nodup hn)
  exact (hs.and hi).imp_of_mem fun hp hq h => disjoint_entities hn hp hq h.1 h.2

-- Whatever a proxy declares belongs to a name of the file.
theorem owner_mem_topNames {p : Proxy} (hp : p ∈ (ofFile f).proxies) :
    ∀ e ∈ p.entities, e.1.getD e.2 ∈ f.topNames := by
  intro e he
  have hs : p.struct ∈ f.topNames := by
    obtain ⟨_, _, hs⟩ := of_mem_proxies hp
    exact (structs_sublist_topNames f).subset hs.declares.1
  rcases Proxy.mem_entities.mp he with rfl | ⟨c, hc, rfl⟩ | ⟨m, -, rfl⟩
  case inl => exact hs
  case inr.inl =>
    have hc := List.mem_map_of_mem (f := Constructor.name) hc
    rw [constructors_of_mem_proxiesWithout hp] at hc
    exact (constructors_sublist_topNames f p.interface).subset hc
  case inr.inr => exact hs

end LayerFile

-- The files of a package that declare nothing twice, with methods of interfaces that have names of
-- their own, have proxies that declare nothing twice either.
theorem nodup_entities_layer {p : Package} {fs gs : List SourceFile} {texts : List String}
    (hn : ((fs.filter (! ·.isTest)).flatMap SourceFile.topNames).Nodup)
    (hm : ∀ f ∈ fs.filter (! ·.isTest), ∀ part ∈ Part.ofFile f, part.methodNames.Nodup)
    (hs : gs.Sublist (fs.filter (! ·.isTest))) (ht : gs.mapM (layerText p) = .ok texts) :
    ∃ drafts, gs.mapM (proxiesDraft p) = .ok drafts ∧ texts = drafts.map Draft.text ∧
      (entities (drafts.flatMap Draft.decls)).Nodup := by
  have hl : layerText p = fun f => Draft.text <$> proxiesDraft p f := funext (layerText_eq p)
  obtain ⟨drafts, hd, rfl⟩ := Failure.mapM_map_eq_ok.mp (hl ▸ ht)
  refine ⟨drafts, hd, rfl, ?_⟩
  rw [entities_mapM_proxiesDraft hd]
  have hg := (hs.flatMap SourceFile.topNames).nodup hn
  refine nodup_flatMap_of_owner (fun e => e.1.getD e.2) hg (fun f hf => ?_) fun f hf e he => ?_
  case refine_1 =>
    refine LayerFile.nodup_entities_proxies ((List.nodup_flatMap.mp hg).1 f hf) fun i hi => ?_
    obtain ⟨-, d, embeds, -, hp⟩ := LayerFile.mem_interfaces hi
    exact hm f (hs.subset hf) _ hp
  case refine_2 =>
    obtain ⟨q, hq, he⟩ := List.mem_flatMap.mp he
    exact LayerFile.owner_mem_topNames hq e he

-- Two interfaces with a method of the same name, and their structs.
def storeAndCache : String :=
  "package svc\n\ntype Store interface \x7b Get() \x7d\n\ntype Cache interface \x7b Get() \x7d\n\n" ++
  "type store struct\x7b\x7d\n\nfunc (store) Get() \x7b\x7d\n\n" ++
  "type cache struct\x7b\x7d\n\nfunc (cache) Get() \x7b\x7d\n"

theorem nodup_entities_layer_storeAndCache :
    ∃ (f : SourceFile) (text : String) (d : Draft),
      SourceFile.parse "svc/svc.go" storeAndCache = .ok f ∧
      (LayerFile.ofFile f).proxies.length = 2 ∧ [f].mapM (layerText Doubles.library) = .ok [text] ∧
      text = d.text ∧ (entities d.decls).Nodup := by
  have hp : (SourceFile.parse "svc/svc.go" storeAndCache).toOption.any fun f =>
      (((Product.proxies.generator {}).text .empty ⟨Doubles.library, f⟩).run ∅).1.toOption.any
        Option.isSome &&
      decide ((LayerFile.ofFile f).proxies.length = 2 ∧ (! f.isTest) ∧ f.topNames.Nodup ∧
        ∀ part ∈ Part.ofFile f, part.methodNames.Nodup) := by
    decide +kernel
  obtain ⟨f, text, _, hf, hr, hl, hs, hn, hm⟩ := Product.exists_text_of_any hp
  have ht : [f].mapM (layerText Doubles.library) = .ok [text] := by
    obtain ⟨hr, -⟩ := Effect.run_ofExcept_eq_ok.mp hr
    obtain ⟨_, hl, ht⟩ := Failure.map_eq_ok.mp hr
    obtain rfl := Option.some.inj ht
    exact Failure.mapM_eq_ok.mpr (.cons hl .nil)
  have hs : [f].filter (! ·.isTest) = [f] := List.filter_cons_of_pos hs
  have hn : (([f].filter (! ·.isTest)).flatMap SourceFile.topNames).Nodup := by
    rwa [hs, List.flatMap_singleton]
  have hm : ∀ g ∈ [f].filter (! ·.isTest), ∀ part ∈ Part.ofFile g,
      part.methodNames.Nodup := by
    rwa [hs, List.forall_mem_singleton]
  have hg : [f].Sublist ([f].filter (! ·.isTest)) := by rw [hs]
  obtain ⟨drafts, -, hd, he⟩ := nodup_entities_layer hn hm hg ht
  obtain ⟨d, rfl⟩ : ∃ d, drafts = [d] :=
    List.length_eq_one_iff.mp (by simpa using congrArg List.length hd.symm)
  exact ⟨f, text, d, hf, hl, ht, (List.cons.inj hd).1, by simpa using he⟩

end Decoration

end StandIn
