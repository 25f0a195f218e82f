import StandIn.Proofs.Decoration.Forwarding
import StandIn.Proofs.Decoration.Listening
import StandIn.Proofs.Decoration.Pairing

/-!
Nothing depends on how the declarations of a file with proxies are interleaved. The proxies are made
when all of the file has been shown, from its imports, structs, interfaces and functions, each in
their own order. They depend neither on places in the file nor on what functions do.
-/

namespace StandIn

-- An import without the place where it stands.
def ImportSpec.placeless (i : ImportSpec) : ImportSpec :=
  Code.madeImport i.name i.path

-- A function without its body and the place where it stands.
def FuncDecl.heading (d : FuncDecl) : FuncDecl :=
  { d with body := none, range := ⟨0, 0⟩ }

namespace Decl

-- A declaration without the places of what it declares, and without bodies.
def placeless : Decl → Decl
  | .imports specs => .imports (specs.map ImportSpec.placeless)
  | .type d        => .type { d with range := ⟨0, 0⟩ }
  | .func d        => .func d.heading

def isStruct : Decl → Bool
  | .type ⟨_, _, _, .struct _, _⟩ => true
  | _                             => false

def isInterface : Decl → Bool
  | .type ⟨_, _, _, .interface _ _, _⟩ => true
  | _                                  => false

def isFunc : Decl → Bool
  | .func _ => true
  | _       => false

end Decl

-- Files with the same imports, structs, interfaces and functions, each in the same order. How these
-- are interleaved, and what else there is, may differ.
structure SourceFile.Interleaved (f g : SourceFile) : Prop where
  imports    : f.imports.map ImportSpec.placeless = g.imports.map ImportSpec.placeless
  structs    : (f.decls.filter Decl.isStruct).map Decl.placeless =
    (g.decls.filter Decl.isStruct).map Decl.placeless
  interfaces : (f.decls.filter Decl.isInterface).map Decl.placeless =
    (g.decls.filter Decl.isInterface).map Decl.placeless
  funcs      : (f.decls.filter Decl.isFunc).map Decl.placeless =
    (g.decls.filter Decl.isFunc).map Decl.placeless

namespace Code

variable (written : List ImportSpec) (used : NameSet) (made : List ImportSpec)

theorem firstOfEach_placeless (is : List ImportSpec) :
    firstOfEach (is.map ImportSpec.placeless) = (firstOfEach is).map ImportSpec.placeless := by
  induction is
  case nil => rfl
  case cons i is hi =>
    rw [List.map_cons, firstOfEach, firstOfEach, hi, List.map_cons, List.filter_map]
    rfl

theorem keptImports_placeless :
    keptImports (written.map ImportSpec.placeless) used =
      (keptImports written used).map ImportSpec.placeless := by
  rw [keptImports, keptImports, List.filter_map]
  rfl

-- Imports are resolved by their names and paths.
theorem resolveImports_placeless :
    resolveImports (written.map ImportSpec.placeless) used made = resolveImports written used made := by
  have hp (is : List ImportSpec) :
      (firstOfEach is).map ImportSpec.placeless = firstOfEach (is.map ImportSpec.placeless) :=
    (firstOfEach_placeless is).symm
  have hm : ImportSpec.placeless ∘ ImportSpec.placeless = ImportSpec.placeless := rfl
  have hr (is : List ImportSpec) : resolveImports is used made =
      ((firstOfEach (keptImports is used ++ made)).map ImportSpec.placeless).mergeSort importLe := rfl
  rw [hr, hr, hp, hp, List.map_append, List.map_append, keptImports_placeless, List.map_map, hm]

end Code

namespace Decoration

open Emission Modules Traversal

namespace LayerFile

variable (l : LayerFile)

-- What counts of a file: the interfaces that other packages can implement, the structs, and the
-- headings of functions.
def core : LayerFile where
  interfaces := l.interfaces.filter isOpen
  structs    := l.structs
  funcs      := l.funcs.map FuncDecl.heading

theorem methodOf?_core (struct name : String) :
    l.core.methodOf? struct name = (l.methodOf? struct name).map FuncDecl.heading :=
  List.find?_map ..

theorem score_core : l.core.score = l.score := by
  funext methods struct
  simp only [score, methodOf?_core, Option.isSome_map]

theorem implementing?_core : l.core.implementing? = l.implementing? := by
  have hb : l.core.better = l.better := by
    funext methods best struct
    simp only [better, score_core]
  funext methods taken
  rw [implementing?, implementing?, hb]
  rfl

theorem proxyMethod_core : l.core.proxyMethod = l.proxyMethod := by
  funext struct m
  rw [proxyMethod, proxyMethod, methodOf?_core]
  cases l.methodOf? struct m.name <;> rfl

theorem constructorsOf_core : l.core.constructorsOf = l.constructorsOf := by
  funext interface
  exact List.filterMap_map ..

theorem proxyOf_core : l.core.proxyOf = l.proxyOf := by
  funext interface methods struct
  rw [proxyOf, proxyOf, constructorsOf_core, proxyMethod_core]

theorem proxiesWithout_core (taken : List String) (is : List (String × List Method)) :
    l.core.proxiesWithout taken (is.filter isOpen) = l.proxiesWithout taken is := by
  induction is generalizing taken
  case nil => rfl
  case cons i is hi =>
    obtain ⟨name, methods⟩ := i
    by_cases ho : isOpen (name, methods)
    case pos =>
      rw [List.filter_cons_of_pos ho]
      simp only [proxiesWithout, implementing?_core, proxyOf_core, hi]
    case neg =>
      have he : ¬ (methods.all fun m => Name.isExported m.name) = true := ho
      rw [List.filter_cons_of_neg ho, hi, proxiesWithout, if_neg he]

theorem proxies_core : l.core.proxies = l.proxies :=
  l.proxiesWithout_core [] l.interfaces

end LayerFile

variable {f g : SourceFile}

-- What is selected from declarations of one kind, wherever they stand.
theorem filterMap_eq_of_filter {α : Type} {kind : Decl → Bool} {select? : Decl → Option α}
    (hk : ∀ d, (select? d).isSome → kind d) (hp : ∀ d, select? d.placeless = select? d)
    (h : (f.decls.filter kind).map Decl.placeless = (g.decls.filter kind).map Decl.placeless) :
    f.decls.filterMap select? = g.decls.filterMap select? := by
  have hs (ds : List Decl) :
      ds.filterMap select? = ((ds.filter kind).map Decl.placeless).filterMap select? := by
    rw [List.filterMap_map, List.filterMap_filter]
    refine List.filterMap_congr fun d _ => ?_
    split
    case isTrue     => exact (hp d).symm
    case isFalse hd => exact Option.not_isSome_iff_eq_none.mp fun h => hd (hk d h)
  rw [hs f.decls, h, ← hs]

theorem LayerFile.core_ofFile (h : f.Interleaved g) : (ofFile f).core = (ofFile g).core := by
  have hi : f.decoratables = g.decoratables := by
    refine filterMap_eq_of_filter (fun d hd => ?_) (fun d => ?_) h.interfaces
    case refine_1 =>
      rcases d with _ | ⟨_, _ | _, _, _ | ⟨_, _ | _⟩ | _ | _, _⟩ | _
      all_goals first | rfl | contradiction
    case refine_2 =>
      rcases d with _ | ⟨_, _ | _, _, _ | ⟨_, _ | _⟩ | _ | _, _⟩ | _
      all_goals rfl
  have hs : f.hiddenStructs = g.hiddenStructs := by
    refine filterMap_eq_of_filter (fun d hd => ?_) (fun d => ?_) h.structs
    case refine_1 =>
      rcases d with _ | ⟨_, _ | _, _, _ | _ | _ | _, _⟩ | _
      all_goals first | rfl | contradiction
    case refine_2 =>
      rcases d with _ | ⟨_, _ | _, _, _ | _ | _ | _, _⟩ | _
      all_goals rfl
  have hf : f.funcs.map FuncDecl.heading = g.funcs.map FuncDecl.heading := by
    rw [SourceFile.funcs, SourceFile.funcs, List.map_filterMap, List.map_filterMap]
    refine filterMap_eq_of_filter (fun d hd => ?_) (fun d => ?_) h.funcs
    case refine_1 =>
      cases d
      all_goals first | rfl | contradiction
    case refine_2 => cases d <;> rfl
  rw [core, core, interfaces_ofFile, interfaces_ofFile, structs_ofFile, structs_ofFile,
    funcs_ofFile, funcs_ofFile, hi, hs, hf]

-- The texts of both files are the same, or they fail in the same way.
theorem layerText_congr (h : f.Interleaved g) (p : Package) : layerText p f = layerText p g := by
  have hp : (LayerFile.ofFile f).proxies = (LayerFile.ofFile g).proxies := by
    rw [← LayerFile.proxies_core, LayerFile.core_ofFile h, LayerFile.proxies_core]
  have hr (used : NameSet) (made : List ImportSpec) :
      Code.resolveImports f.imports used made = Code.resolveImports g.imports used made := by
    rw [← Code.resolveImports_placeless, h.imports, Code.resolveImports_placeless]
  simp only [layerText, LayerFile.text, hp, hr]

-- What the listener makes of a file, whatever it has noted before.
theorem making_layer (c : Config) (v : Visit) (n : LayerNotes) :
    ((layerListener c).making v n).1 = some <$> layerText v.package v.file := by
  rw [Listener.making, layer_noted, layer_text]
  rfl

-- Two files of one name in a package, with the same declarations of every kind that matters, are
-- treated alike: the listener wants to see both or none, and writes the same text to the same place,
-- or it fails in the same way.
theorem layer_interleaved {c : Config} {e : Emitter} {p : Package} {s t : Listening LayerNotes}
    (h : f.Interleaved g) (hn : f.name = g.name) (hs : s.package = some p)
    (ht : t.package = some p) :
    ((layerListener c).begins ⟨p, f⟩ s.notes).1 = ((layerListener c).begins ⟨p, g⟩ t.notes).1 ∧
    ((layerListener c).making ⟨p, f⟩ s.notes).1 = ((layerListener c).making ⟨p, g⟩ t.notes).1 ∧
    Effect.Alike
      (fun s' t' => ∃ new, s'.written = s.written ++ new ∧ t'.written = t.written ++ new)
      (((layerListener c).observer e).ends ⟨p, f⟩ (((layerListener c).observer e).heard ⟨p, f⟩ s))
      (((layerListener c).observer e).ends ⟨p, g⟩ (((layerListener c).observer e).heard ⟨p, g⟩ t)) := by
  have hb : ((layerListener c).begins ⟨p, f⟩ s.notes).1 =
      ((layerListener c).begins ⟨p, g⟩ t.notes).1 := by
    simp only [layerListener, SourceFile.isTest, hn]
  have hm : ((layerListener c).making ⟨p, f⟩ s.notes).1 =
      ((layerListener c).making ⟨p, g⟩ t.notes).1 := by
    rw [making_layer, making_layer, layerText_congr h]
  have hp : (layerListener c).target ⟨p, f⟩ = (layerListener c).target ⟨p, g⟩ := by
    simp only [layerListener, target, hn]
  refine ⟨hb, hm, ?_⟩
  rw [Listener.ends_heard hs, Listener.ends_heard ht, hm, hp]
  exact .map_self _ fun new => ⟨new, rfl, rfl⟩

-- The same declarations as those of the doors, from the last one to the first.
def doorsTurned : SourceFile where
  path          := "handler/handler.go"
  package       := "handler"
  source        := ""
  decls         := [
    .func ⟨"Ring", some ⟨some "d", .ofName "door"⟩, none, ringBells.signature,
      some ⟨⟨49, 51⟩, []⟩, ⟨17, 51⟩⟩,
    .type ⟨"door", none, false, .struct [], ⟨53, 71⟩⟩,
    .type ⟨"Door", none, false, .interface [openDoor, ringBells] [], ⟨73, 141⟩⟩]
  qualifierRefs := []

theorem layer_interleaved_doors :
    ∃ p : Package, ∃ text, doors.Interleaved doorsTurned ∧ doors.decls.length = 3 ∧
      ((layerListener {}).making ⟨p, doors⟩ {}).1 = .ok (some text) ∧
      ((layerListener {}).making ⟨p, doorsTurned⟩ {}).1 = .ok (some text) ∧
      (LayerFile.ofFile doors).proxies.map Proxy.struct = ["door"] := by
  let p : Package := ⟨"m", "handler", ".", "handler", false⟩
  let s : Listening LayerNotes := ⟨some p, {}, []⟩
  let e : Emitter := ⟨asWritten, "debug.log"⟩
  have h : doors.Interleaved doorsTurned := ⟨rfl, rfl, rfl, rfl⟩
  have ht : ((layerListener {}).making ⟨p, doors⟩ {}).1.toOption.any Option.isSome := by
    decide +kernel
  obtain ⟨text, ht, hs⟩ := Failure.exists_of_any ht
  obtain ⟨text, rfl⟩ := Option.isSome_iff_exists.mp hs
  obtain ⟨-, hm, -⟩ := layer_interleaved (c := {}) (e := e) (s := s) (t := s) h rfl rfl rfl
  exact ⟨p, text, h, rfl, ht, hm ▸ ht, by decide +kernel⟩

end Decoration

end StandIn
