import Mathlib.Data.List.Infix
import StandIn.Proofs.Code.Decl
import StandIn.Proofs.Doubles.Names
import StandIn.Proofs.Draft.Written
import StandIn.Proofs.Traversal.TopName

/-!
The names that the builders of a package take. Each struct has three of them, made without regard to
other structs, so the names of one struct may be those of another.
-/

namespace StandIn.Doubles

open Code.Decl (packageNames)
open Modules Traversal Value

-- The type of the builder, the function that starts one, and the one that fills a struct.
def builderNames (name : String) : List String :=
  [name ++ "Builder", "Build" ++ name, name]

-- No struct is called like the builder of another one or the function that starts it, and no two of
-- them make one name in different ways.
structure BuildersApart (names : List String) : Prop where
  builder : ∀ n ∈ names, n ++ "Builder" ∉ names
  start   : ∀ n ∈ names, "Build" ++ n ∉ names
  between : ∀ n, ¬ ("Build" ++ n ∈ names ∧ n ++ "Builder" ∈ names)

-- A builder and a start of a builder have one name only when their structs share the middle of it.
theorem builder_eq_start_iff {m n : String} (hm : m ≠ "") :
    m ++ "Builder" = "Build" ++ n ↔ ∃ x, m = "Build" ++ x ∧ n = x ++ "Builder" := by
  constructor
  case mp =>
    intro h
    have hl : m.toList ++ "Builder".toList = "Build".toList ++ n.toList := by
      rw [← String.toList_append, h, String.toList_append]
    rcases List.append_eq_append_iff.mp hl with ⟨xs, hx, hn⟩ | ⟨xs, hx, hn⟩
    case inl =>
      -- The first name ends within `Build`, where no `Builder` can begin but at its end.
      have hs : xs ∈ "Build".toList.tails := (List.mem_tails _ _).mpr ⟨_, hx.symm⟩
      have hp : xs ∈ "Builder".toList.inits := (List.mem_inits _ _).mpr ⟨_, hn.symm⟩
      have hd : ∀ xs ∈ "Build".toList.tails, xs ∈ "Builder".toList.inits →
          xs = [] ∨ xs = "Build".toList := by decide
      rcases hd xs hs hp with rfl | rfl
      case inl =>
        exact ⟨"", String.toList_inj.mp (by simpa using hx.symm),
          String.toList_inj.mp hn.symm⟩
      case inr => exact absurd (String.toList_eq_nil_iff.mp (List.self_eq_append_left.mp hx)) hm
    case inr =>
      exact ⟨.ofList xs, by simp [← String.toList_inj, hx], by simp [← String.toList_inj, hn]⟩
  case mpr =>
    rintro ⟨x, rfl, rfl⟩
    rw [String.append_assoc]

theorem nodup_builderNames_iff {names : List String} (h : names.Nodup) (he : "" ∉ names) :
    (names.flatMap builderNames).Nodup ↔ BuildersApart names := by
  have hb : (names.map (· ++ "Builder")).Nodup := h.map fun _ _ => (String.append_left_inj _).mp
  have hs : (names.map ("Build" ++ ·)).Nodup := h.map fun _ _ => (String.append_right_inj _).mp
  have hp := flatMap_triple_perm (· ++ "Builder") ("Build" ++ ·) id names
  rw [List.map_id] at hp
  have hd : (names.flatMap builderNames).Nodup ↔
      (∀ m ∈ names, ∀ n ∈ names, m ++ "Builder" ≠ "Build" ++ n) ∧
      (∀ m ∈ names, ∀ n ∈ names, m ++ "Builder" ≠ n) ∧
      ∀ m ∈ names, ∀ n ∈ names, "Build" ++ m ≠ n := by
    refine hp.nodup_iff.trans ?_
    simp only [List.nodup_append', hb, hs, h, true_and, List.disjoint_append_right]
    simp only [List.disjoint_iff_ne, List.forall_mem_map]
    tauto
  rw [hd]
  constructor
  case mp =>
    rintro ⟨hbs, hbn, hsn⟩
    refine ⟨fun n hn hm => hbn n hn _ hm rfl, fun n hn hm => hsn n hn _ hm rfl, ?_⟩
    rintro n ⟨hm, hn⟩
    exact hbs _ hm _ hn (String.append_assoc ..)
  case mpr =>
    intro ha
    refine ⟨fun m hm n hn he' => ?_, fun m hm n hn => ?_, fun m hm n hn => ?_⟩
    case refine_1 =>
      obtain ⟨x, rfl, rfl⟩ := (builder_eq_start_iff (ne_of_mem_of_not_mem hm he)).mp he'
      exact ha.between x ⟨hm, hn⟩
    case refine_2 => exact fun he => ha.builder m hm (he ▸ hn)
    case refine_3 => exact fun he => ha.start m hm (he ▸ hn)

-- What a struct is built by declares its three names, and methods besides.
theorem packageNames_decls {b : Built} {s : Settings} {qualifier : String} {st st' : State}
    {ds : List Code.Decl} (h : (b.decls s qualifier).run st = (.ok ds, st')) :
    packageNames ds = builderNames b.name := by
  obtain ⟨setters, _, hs, h⟩ := Effect.run_bind_eq_ok.mp h
  obtain ⟨_, _, _, h⟩ := Effect.run_bind_eq_ok.mp h
  obtain ⟨values, _, _, h⟩ := Effect.run_bind_eq_ok.mp h
  obtain ⟨rfl, -⟩ := Effect.run_pure_eq_ok.mp h
  obtain ⟨hs, -⟩ := Effect.run_ofExcept_eq_ok.mp hs
  have hm : ∀ f ∈ setters, f.receiver.isSome := by
    intro f hf
    obtain ⟨field, -, hd⟩ := Failure.exists_of_mapM hs f hf
    obtain ⟨param, -, hd⟩ := Failure.bind_eq_ok.mp hd
    obtain rfl := Except.ok.inj hd
    rfl
  rw [← List.singleton_append, Code.Decl.packageNames_append, List.map_append, List.map_append,
    Code.Decl.packageNames_append, Code.Decl.packageNames_append, Code.Decl.packageNames_methods hm]
  rfl

theorem packageNames_mapM_decls {bs : List Built} {s : Settings} {qualifier : String}
    {st st' : State} {dss : List (List Code.Decl)}
    (h : Effect.run (bs.mapM fun b => b.decls s qualifier) st = (.ok dss, st')) :
    packageNames dss.flatten = (bs.map Built.name).flatMap builderNames := by
  induction bs generalizing st dss
  case nil =>
    obtain ⟨rfl, -⟩ := Effect.run_pure_eq_ok.mp h
    rfl
  case cons b bs hi =>
    obtain ⟨ds, _, ess, hd, hes, rfl⟩ := Effect.run_mapM_cons_eq_ok.mp h
    rw [List.flatten_cons, Code.Decl.packageNames_append, packageNames_decls hd, hi hes,
      List.map_cons, List.flatMap_cons]

-- The structs that a file has builders for are called like declarations of the file.
theorem builtOf_sublist (f : SourceFile) : ((builtOf f).map Built.name).Sublist f.topNames := by
  refine Part.select_sublist (fun p b hb => ?_) f
  unfold builtOf? at hb
  split at hb
  case h_2 => contradiction
  case h_1 d fields =>
    split at hb
    case isFalse => contradiction
    case isTrue  => exact Option.some.inj hb ▸ rfl

theorem packageNames_buildersDraft {c : Config} {p : Package} {f : SourceFile} {draft : Option Draft}
    (h : ((buildersDraft c p f).run {}).1 = .ok draft) :
    packageNames (draft.toList.flatMap Draft.decls) =
      ((builtOf f).map Built.name).flatMap builderNames := by
  obtain ⟨st, h⟩ : ∃ st, (buildersDraft c p f).run {} = (.ok draft, st) :=
    ⟨_, Prod.ext h rfl⟩
  rw [buildersDraft] at h
  dsimp only at h
  split at h
  case isTrue he =>
    obtain ⟨rfl, -⟩ := Effect.run_pure_eq_ok.mp h
    rw [List.isEmpty_iff.mp he]
    rfl
  case isFalse =>
    obtain ⟨dss, _, hd, h⟩ := Effect.run_bind_eq_ok.mp h
    obtain ⟨_, _, -, h⟩ := Effect.run_bind_eq_ok.mp h
    obtain ⟨rfl, -⟩ := Effect.run_pure_eq_ok.mp h
    exact (congrArg packageNames (List.flatMap_singleton ..)).trans (packageNames_mapM_decls hd)

theorem packageNames_mapM_buildersDraft {c : Config} {p : Package} {fs : List SourceFile}
    {drafts : List (Option Draft)}
    (h : fs.mapM (fun f => ((buildersDraft c p f).run {}).1) = .ok drafts) :
    packageNames (drafts.reduceOption.flatMap Draft.decls) =
      ((fs.flatMap builtOf).map Built.name).flatMap builderNames := by
  have hd : drafts.reduceOption.flatMap Draft.decls =
      drafts.flatMap fun d => d.toList.flatMap Draft.decls := by
    have ho : drafts.reduceOption = drafts.flatMap Option.toList :=
      List.filterMap_eq_flatMap_toList id drafts
    rw [ho, List.flatMap_assoc]
  rw [hd, Code.Decl.packageNames_flatMap, List.map_flatMap, List.flatMap_assoc]
  exact Failure.flatMap_eq_of_mapM (fun _ _ => packageNames_buildersDraft) h

theorem factoryText_eq (c : Config) (p : Package) :
    factoryText c p = fun f => Option.map Draft.text <$> ((buildersDraft c p f).run {}).1 :=
  funext fun f => by rw [factoryText, buildersText_eq, Product.fst_run_map]

-- The builders of a package whose files declare nothing twice do not do so either, just when the
-- structs keep out of the way of each other's builders.
theorem nodup_packageNames_iff {c : Config} {p : Package} {fs gs : List SourceFile}
    {texts : List (Option String)}
    (hn : ((fs.filter (! ·.isTest)).flatMap SourceFile.topNames).Nodup)
    (hs : gs.Sublist (fs.filter (! ·.isTest))) (ht : gs.mapM (factoryText c p) = .ok texts) :
    ∃ drafts, gs.mapM (fun f => ((buildersDraft c p f).run {}).1) = .ok drafts ∧
      texts = drafts.map (Option.map Draft.text) ∧
      ((packageNames (drafts.reduceOption.flatMap Draft.decls)).Nodup ↔
        BuildersApart ((gs.flatMap builtOf).map Built.name)) := by
  obtain ⟨drafts, hd, rfl⟩ := Failure.mapM_map_eq_ok.mp (factoryText_eq c p ▸ ht)
  refine ⟨drafts, hd, rfl, ?_⟩
  rw [packageNames_mapM_buildersDraft hd]
  refine nodup_builderNames_iff ?_ ?_
  case refine_1 =>
    rw [List.map_flatMap]
    have hb := List.Sublist.flatMap_right gs fun f _ => builtOf_sublist f
    exact (hb.trans (hs.flatMap _)).nodup hn
  case refine_2 =>
    intro he
    obtain ⟨b, hb, he⟩ := List.mem_map.mp he
    obtain ⟨f, -, hb⟩ := List.mem_flatMap.mp hb
    have hx := (mem_builtOf hb).1
    rw [he] at hx
    exact absurd hx (by decide)

-- A package with two structs.
def structs (m n : String) : String :=
  "package svc\n\ntype " ++ m ++ " struct\x7b\x7d\n\ntype " ++ n ++ " struct\x7b\x7d\n"

-- What was made of a file alone.
theorem mapM_factoryText {c : Config} {p : Package} {f : SourceFile} {text : String}
    {claimed claimed' : NameSet}
    (h : ((Product.builders.generator c).text .empty ⟨p, f⟩).run claimed =
      (.ok (some text), claimed')) :
    [f].mapM (factoryText c p) = .ok [some text] := by
  have hf : factoryText c p f = .ok (some text) := (Effect.run_ofExcept_eq_ok.mp h).1
  exact Failure.mapM_eq_ok.mpr (.cons hf .nil)

theorem nodup_packageNames_iff_clock :
    ∃ (f : SourceFile) (text : String) (drafts : List (Option Draft)),
      SourceFile.parse "svc/svc.go" (structs "Clock" "Watch") = .ok f ∧
      [f].mapM (factoryText {} library) = .ok [some text] ∧
      [some text] = drafts.map (Option.map Draft.text) ∧
      (packageNames (drafts.reduceOption.flatMap Draft.decls)).Nodup := by
  have hp : (SourceFile.parse "svc/svc.go" (structs "Clock" "Watch")).toOption.any fun f =>
      (((Product.builders.generator {}).text .empty ⟨library, f⟩).run ∅).1.toOption.any
        Option.isSome &&
      decide (f.topNames.Nodup ∧ (! f.isTest) ∧
        ([f].flatMap builtOf).map Built.name = ["Clock", "Watch"]) := by
    decide +kernel
  obtain ⟨f, text, _, hf, hr, hn, hs, hb⟩ := Product.exists_text_of_any hp
  have hs : [f].filter (! ·.isTest) = [f] := List.filter_cons_of_pos hs
  have hn : (([f].filter (! ·.isTest)).flatMap SourceFile.topNames).Nodup := by
    rwa [hs, List.flatMap_singleton]
  have ht := mapM_factoryText hr
  have hg : [f].Sublist ([f].filter (! ·.isTest)) := by rw [hs]
  obtain ⟨drafts, -, hd, hi⟩ := nodup_packageNames_iff hn hg ht
  refine ⟨f, text, drafts, hf, ht, hd, hi.mpr ?_⟩
  rw [hb]
  refine ⟨by decide, by decide, ?_⟩
  rintro n ⟨hm, -⟩
  have h5 : ∀ m ∈ ["Clock", "Watch"], m.toList.take 5 ≠ "Build".toList := by decide
  exact h5 _ hm (by simp)

-- A struct called like the builder of another one.
theorem builder_declared_twice :
    ∃ (f : SourceFile) (text : String) (drafts : List (Option Draft)),
      SourceFile.parse "svc/svc.go" (structs "T" "TBuilder") = .ok f ∧
      ! f.isTest ∧ f.topNames.Nodup ∧ [f].mapM (factoryText {} library) = .ok [some text] ∧
      [f].mapM (fun f => ((buildersDraft {} library f).run {}).1) = .ok drafts ∧
      [some text] = drafts.map (Option.map Draft.text) ∧
      ¬ (packageNames (drafts.reduceOption.flatMap Draft.decls)).Nodup := by
  have hp : (SourceFile.parse "svc/svc.go" (structs "T" "TBuilder")).toOption.any fun f =>
      (((Product.builders.generator {}).text .empty ⟨library, f⟩).run ∅).1.toOption.any
        Option.isSome &&
      decide ((! f.isTest) ∧ f.topNames.Nodup ∧
        ¬ ((([f].flatMap builtOf).map Built.name).flatMap builderNames).Nodup) := by
    decide +kernel
  obtain ⟨f, text, _, hf, hr, hs, hn, hb⟩ := Product.exists_text_of_any hp
  have ht := mapM_factoryText hr
  obtain ⟨drafts, hd, he⟩ := Failure.mapM_map_eq_ok.mp (factoryText_eq {} library ▸ ht)
  refine ⟨f, text, drafts, hf, hs, hn, ht, hd, he.symm, ?_⟩
  rwa [packageNames_mapM_buildersDraft hd]

end StandIn.Doubles
