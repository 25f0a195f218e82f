import StandIn.Proofs.Emission.Script
import StandIn.Proofs.Traversal.Reference

/-!
What generators do when they are told about a module, deed by deed. Every file that a generator
wants comes to a text, to nothing, or to the end of the run.
-/

namespace StandIn.Emission

open Files Modules Traversal

-- A generator is shown a file. Names may have been claimed for the package before.
structure Deed where
  names     : PackageNames
  generator : Generator
  visit     : Visit
  claimed   : NameSet

namespace Deed

variable (d : Deed)

def target : Path := d.generator.target d.visit

-- What is made of the file, and the names that are claimed then.
def making : Except Failure (Option String) × NameSet :=
  (d.generator.text d.names d.visit).run d.claimed

-- The text that is stored, if there is one, or what stops the run.
def outcome : Except Stop (Option (Path × String)) :=
  match d.making.1 with
  | .error f        => .error (.failed f)
  | .ok none        => .ok none
  | .ok (some text) =>
    match SourceFile.parse d.target text with
    | .ok _    => .ok (some (d.target, text))
    | .error f => .error (.refused d.target f.message text)

def works : List (Path × String) :=
  match d.outcome with
  | .ok work => work.toList
  | .error _ => []

def script : Script Unit where
  works  := d.works
  ending := d.outcome.map fun _ => ()

end Deed

-- One deed after the other, until one of them stops.
def Script.ofDeeds : List Deed → Script Unit
  | []      => ⟨[], .ok ()⟩
  | d :: ds => d.script.andThen fun _ => ofDeeds ds

-- Where the texts of deeds go.
def paths (ds : List Deed) : List Path :=
  ds.flatMap fun d => d.works.map Prod.fst

namespace Generator

variable (g : Generator) (names : PackageNames)

def wants (v : Visit) : Bool :=
  g.wantsPackage v.package && g.wantsFile v

-- The names that are claimed for a package when some of its files have been shown.
def claims (p : Package) (before : List SourceFile) : NameSet :=
  before.foldl (fun claimed f =>
    if g.wants ⟨p, f⟩ then (Deed.making ⟨names, g, ⟨p, f⟩, claimed⟩).2 else claimed) ∅

def deeds (before : List SourceFile) (v : Visit) : List Deed :=
  if g.wants v then [⟨names, g, v, g.claims names v.package before⟩] else []

end Generator

section

variable (gs : List Generator) (names : PackageNames)

-- A file is shown to one generator after the other.
def fileDeeds (before : List SourceFile) (v : Visit) : List Deed :=
  gs.flatMap fun g => g.deeds names before v

def filesDeeds (p : Package) : List SourceFile → List SourceFile → List Deed
  | _, []           => []
  | before, f :: fs => fileDeeds gs names before ⟨p, f⟩ ++ filesDeeds p (before ++ [f]) fs

-- All deeds in the order in which a module is gone through.
def deeds (skipTests : Bool) (ls : List Loaded) : List Deed :=
  ls.flatMap fun l => filesDeeds gs names l.package [] (shownFiles skipTests l)

end

namespace Script

variable {α β : Type}

theorem andThen_assoc {γ : Type} (s : Script α) (k : α → Script β) (l : β → Script γ) :
    (s.andThen k).andThen l = s.andThen fun a => (k a).andThen l := by
  obtain ⟨works, _ | a⟩ := s
  case error => rfl
  case ok =>
    simp only [andThen]
    cases (k a).ending
    case error => rfl
    case ok    => simp

theorem ofDeeds_append (ds ds' : List Deed) :
    ofDeeds (ds ++ ds') = (ofDeeds ds).andThen fun _ => ofDeeds ds' := by
  induction ds
  case nil          => rfl
  case cons d ds hi => rw [List.cons_append, ofDeeds, hi, ofDeeds, andThen_assoc]

theorem ofDeeds_singleton (d : Deed) : ofDeeds [d] = d.script := by
  rcases h : d.script with ⟨works, _ | _⟩ <;> simp [ofDeeds, h, andThen]

-- Deeds are done up to the first one that stops.
theorem ofDeeds_cases (ds : List Deed) :
    (∀ d ∈ ds, ∃ work, d.outcome = .ok work) ∧ ofDeeds ds = ⟨ds.flatMap Deed.works, .ok ()⟩ ∨
    ∃ front d back stop, ds = front ++ d :: back ∧ (∀ e ∈ front, ∃ work, e.outcome = .ok work) ∧
      d.outcome = .error stop ∧ ofDeeds ds = ⟨front.flatMap Deed.works, .error stop⟩ := by
  induction ds
  case nil => exact .inl ⟨by simp, rfl⟩
  case cons d ds hi =>
    cases ho : d.outcome
    case error stop =>
      refine .inr ⟨[], d, ds, stop, rfl, by simp, ho, ?_⟩
      simp [ofDeeds, Deed.script, Deed.works, ho, andThen, Except.map]
    case ok work =>
      have hs (s : Script Unit) : d.script.andThen (fun _ => s) = ⟨d.works ++ s.works, s.ending⟩ := by
        simp [Deed.script, ho, andThen, Except.map]
      rcases hi with ⟨hd, he⟩ | ⟨front, e, back, stop, rfl, hf, ho', he⟩
      case inl => exact .inl ⟨List.forall_mem_cons.mpr ⟨⟨work, ho⟩, hd⟩, by rw [ofDeeds, hs, he]; rfl⟩
      case inr =>
        exact .inr ⟨d :: front, e, back, stop, rfl, List.forall_mem_cons.mpr ⟨⟨work, ho⟩, hf⟩, ho',
          by rw [ofDeeds, hs, he]; rfl⟩

-- A script whose result does not matter.
def forget (s : Script α) : Script Unit where
  works  := s.works
  ending := s.ending.map fun _ => ()

variable {s : Script α} {ds : List Deed}

theorem works_of_forget (h : s.forget = ofDeeds ds) : s.works = (ofDeeds ds).works := by
  rw [← h]
  rfl

-- Where deeds come to a result, all of them have been done.
theorem done_of_forget {a : α} (h : s.forget = ofDeeds ds) (he : s.ending = .ok a) :
    s.works = ds.flatMap Deed.works ∧ ∀ d ∈ ds, ∃ work, d.outcome = .ok work := by
  rcases ofDeeds_cases ds with ⟨hd, ho⟩ | ⟨_, _, _, _, _, _, _, ho⟩
  case inl => exact ⟨by rw [works_of_forget h, ho], hd⟩
  case inr => simp [forget, he, ho, Except.map] at h

end Script

variable {α β : Type} {log : Path} {ds ds' : List Deed} {post : α → Prop} {post' : β → Prop}

theorem Deed.script_of_ok {d : Deed} {work : Option (Path × String)} (h : d.outcome = .ok work) :
    d.script = ⟨work.toList, .ok ()⟩ := by
  simp [script, works, h, Except.map]

theorem Deed.script_of_error {d : Deed} {stop : Stop} (h : d.outcome = .error stop) :
    d.script = ⟨[], .error stop⟩ := by
  simp [script, works, h, Except.map]

-- A computation does the given deeds; and when it comes to its end, something is known of its
-- result.
def Does (log : Path) (ds : List Deed) (post : α → Prop) (e : Effect (Stage Workspace) α) : Prop :=
  ∃ s : Script α, s.Tells log e ∧ s.forget = .ofDeeds ds ∧ ∀ a, s.ending = .ok a → post a

namespace Does

theorem pure {a : α} (h : post a) : Does log [] post (pure a) :=
  ⟨⟨[], .ok a⟩, fun _ => rfl, rfl, fun _ he => Except.ok.inj he ▸ h⟩

theorem note (number : Nat) (event : Event) : Does log [] (fun _ => True) (note number event) :=
  ⟨⟨[], .ok ()⟩, fun _ => rfl, rfl, fun _ _ => trivial⟩

theorem bind {e : Effect (Stage Workspace) α} {k : α → Effect (Stage Workspace) β}
    (h : Does log ds post e) (hk : ∀ a, post a → Does log ds' post' (k a)) :
    Does log (ds ++ ds') post' (e >>= k) := by
  obtain ⟨⟨works, ending⟩, hs, hf, hp⟩ := h
  rw [Does, Script.ofDeeds_append, ← hf]
  match ending with
  | .error stop =>
    have ht := hs.bind (k := fun _ => ⟨[], .error stop⟩) (l := k) (by simp)
    exact ⟨⟨works, .error stop⟩, ht, rfl, by simp⟩
  | .ok a =>
    have ⟨s, hs', hf', hp'⟩ := hk a (hp a rfl)
    have ht := hs.bind (k := fun _ => s) (l := k) fun b hb => Except.ok.inj hb ▸ hs'
    exact ⟨⟨works ++ s.works, s.ending⟩, ht, by rw [← hf']; rfl, hp'⟩

-- What comes first does nothing.
theorem first {e : Effect (Stage Workspace) α} {k : α → Effect (Stage Workspace) β}
    (h : Does log [] post e) (hk : ∀ a, post a → Does log ds post' (k a)) :
    Does log ds post' (e >>= k) :=
  h.bind hk

-- What comes last does nothing.
theorem last {e : Effect (Stage Workspace) α} {k : α → Effect (Stage Workspace) β}
    (h : Does log ds post e) (hk : ∀ a, post a → Does log [] post' (k a)) :
    Does log ds post' (e >>= k) := by
  have hb := h.bind hk
  rwa [List.append_nil] at hb

theorem map {e : Effect (Stage Workspace) α} {k : α → β} (h : Does log ds post e)
    (hk : ∀ a, post a → post' (k a)) : Does log ds post' (e >>= fun a => Pure.pure (k a)) :=
  h.last fun a ha => .pure (hk a ha)

end Does

-- An emitter that leaves texts as they are.
def plainly (log : Path) : Emitter := ⟨asWritten, log⟩

theorem emit_parsed {target : Path} {text : String} {f : SourceFile}
    (h : SourceFile.parse target text = .ok f) :
    (plainly log).emit target text = store target text >>= fun _ => pure target := by
  simp [Emitter.emit, Emitter.accepted, plainly, asWritten, h, store]

theorem emit_refused {target : Path} {text : String} {f : Failure}
    (h : SourceFile.parse target text = .error f) (x : Workspace) :
    ((plainly log).emit target text).run x =
      (Script.finish log (.error (.refused target f.message text) : Except Stop Path)).run x := by
  simp only [Emitter.emit, Emitter.accepted, plainly, asWritten, h]
  rfl

-- When a file ends, that is a deed.
theorem Generator.ends_does (g : Generator) (v : Visit) (q : Progress) :
    Does log [⟨q.names, g, v, q.claimed⟩]
      (fun q' => q' = ⟨q.names, (Deed.making ⟨q.names, g, v, q.claimed⟩).2,
        q.written ++ paths [⟨q.names, g, v, q.claimed⟩]⟩)
      (onWorld ((g.observer (plainly log)).ends v q)) := by
  rw [Does, Script.ofDeeds_singleton]
  rcases ht : (g.text q.names v).run q.claimed with ⟨r, claimed⟩
  simp only [observer, ht, paths, Deed.making, List.flatMap_singleton]
  rcases r with f | _ | text
  case error =>
    have ho : Deed.outcome ⟨q.names, g, v, q.claimed⟩ = .error (.failed f) := by
      simp [Deed.outcome, Deed.making, ht]
    exact ⟨⟨[], .error (.failed f)⟩, fun _ => rfl, (Deed.script_of_error ho).symm, by simp⟩
  case ok.none =>
    have ho : Deed.outcome ⟨q.names, g, v, q.claimed⟩ = .ok none := by
      simp [Deed.outcome, Deed.making, ht]
    exact ⟨⟨[], .ok { q with claimed }⟩, fun _ => rfl, (Deed.script_of_ok ho).symm,
      by simp [Deed.works, ho]⟩
  case ok.some =>
    cases hp : SourceFile.parse (g.target v) text
    case error f =>
      have ho : Deed.outcome ⟨q.names, g, v, q.claimed⟩ =
          .error (.refused (g.target v) f.message text) := by
        simp [Deed.outcome, Deed.making, ht, Deed.target, hp]
      refine ⟨⟨[], .error (.refused (g.target v) f.message text)⟩, fun x => ?_,
        (Deed.script_of_error ho).symm, by simp⟩
      change ((plainly log).emit (g.target v) text >>= _).run _ = _
      rw [Effect.run_bind, emit_refused hp]
      rfl
    case ok f =>
      have ho : Deed.outcome ⟨q.names, g, v, q.claimed⟩ = .ok (some (g.target v, text)) := by
        simp [Deed.outcome, Deed.making, ht, Deed.target, hp]
      refine ⟨⟨[(g.target v, text)],
        .ok { q with claimed, written := q.written ++ [g.target v] }⟩, fun x => ?_,
        (Deed.script_of_ok ho).symm, by simp [Deed.works, ho]⟩
      change ((plainly log).emit (g.target v) text >>= _).run _ = _
      rw [emit_parsed hp, bind_assoc, Script.perform, storeAll, bind_assoc]
      rfl

-- A generator that watches under a number.
def watch (log : Path) (names : PackageNames) (k : Nat × Generator) (claimed : NameSet)
    (written : List Path) : Watch Progress Workspace :=
  ⟨k.1, k.2.observer (plainly log), ⟨names, claimed, written⟩⟩

variable {names : PackageNames} {k : Nat × Generator} {ks : List (Nat × Generator)}
variable {claimed : NameSet} {written : List Path} {before : List SourceFile}

theorem Generator.claims_append (g : Generator) (p : Package) (f : SourceFile) :
    g.claims names p (before ++ [f]) =
      if g.wants ⟨p, f⟩ then (Deed.making ⟨names, g, ⟨p, f⟩, g.claims names p before⟩).2
      else g.claims names p before := by
  simp [claims]

-- Generators do not look at parts.
theorem tellParts_does (v : Visit) (parts : List Part) :
    Does log [] (fun w => w = watch log names k claimed written)
      (Watch.tellParts v parts (watch log names k claimed written)) := by
  induction parts
  case nil                => exact .pure rfl
  case cons part parts hi => exact (Does.note k.1 (.part v part)).bind fun _ _ => hi

theorem tellFile_does (v : Visit) (hp : k.2.wantsPackage v.package) :
    Does log (k.2.deeds names before v)
      (fun r => r.2 = watch log names k (k.2.claims names v.package (before ++ [v.file]))
        (written ++ paths (k.2.deeds names before v)))
      ((watch log names k (k.2.claims names v.package before) written).tellFile v) := by
  refine (Does.note k.1 (.begins v)).first fun _ _ => ?_
  change Does _ _ _ (if ! k.2.wantsFile v then pure _ else _)
  rw [k.2.claims_append, Generator.deeds, Generator.wants, hp, Bool.true_and]
  cases hw : k.2.wantsFile v
  case false => exact .pure (by simp [paths, watch, Generator.observer])
  case true =>
    refine (tellParts_does v (Part.ofFile v.file)).first ?_
    rintro _ rfl
    refine (Does.note k.1 (.ends v)).first fun _ _ => ?_
    refine (k.2.ends_does v _).last ?_
    rintro _ rfl
    exact .pure rfl

-- A generator that does not want a package makes nothing of its files.
theorem Generator.deeds_of_unwanted {g : Generator} {v : Visit}
    (h : g.wantsPackage v.package = false) (names : PackageNames) (before : List SourceFile) :
    g.deeds names before v = [] ∧
      g.claims names v.package (before ++ [v.file]) = g.claims names v.package before := by
  have hw : g.wants v = false := by rw [wants, h, Bool.false_and]
  rw [deeds, claims_append, hw]
  exact ⟨rfl, rfl⟩

-- Generators that watch a package, with marks of those who want to see it.
def watches (log : Path) (names : PackageNames) (p : Package) (before : List SourceFile)
    (ks : List (Nat × Generator)) (written : Nat × Generator → List Path) :
    List (Bool × Watch Progress Workspace) :=
  ks.map fun k =>
    (k.2.wantsPackage p, watch log names k (k.2.claims names p before) (written k))

variable {wrote : Nat × Generator → List Path}

theorem watches_cons (p : Package) :
    watches log names p before (k :: ks) wrote =
      (k.2.wantsPackage p, watch log names k (k.2.claims names p before) (wrote k)) ::
        watches log names p before ks wrote :=
  rfl

theorem tellFileAll_does (v : Visit) :
    Does log (fileDeeds (ks.map Prod.snd) names before v)
      (fun r => r.2 = watches log names v.package (before ++ [v.file]) ks
        fun k => wrote k ++ paths (k.2.deeds names before v))
      (Watch.tellFileAll v (watches log names v.package before ks wrote)) := by
  induction ks
  case nil => exact .pure rfl
  case cons k ks hi =>
    rw [watches_cons, watches_cons, List.map_cons, fileDeeds, List.flatMap_cons]
    cases hp : k.2.wantsPackage v.package
    case false =>
      have ⟨hd, hc⟩ := Generator.deeds_of_unwanted hp names before
      rw [hd, hc]
      exact hi.map fun r hr => by simp [hr, paths]
    case true =>
      refine (tellFile_does v hp).bind ?_
      rintro ⟨first, _⟩ rfl
      exact hi.map fun r hr => by rw [hr]

theorem tellFiles_does (p : Package) (fs : List SourceFile) :
    Does log (filesDeeds (ks.map Prod.snd) names p before fs)
      (fun r => r.2 = watches log names p (before ++ fs) ks
        fun k => wrote k ++ paths (filesDeeds [k.2] names p before fs))
      (Watch.tellFiles p fs (watches log names p before ks wrote)) := by
  induction fs generalizing before wrote
  case nil => exact .pure (by simp [filesDeeds, paths])
  case cons f fs hi =>
    refine (tellFileAll_does ⟨p, f⟩).bind ?_
    rintro ⟨seen, _⟩ rfl
    refine hi.map fun r hr => ?_
    simp [hr, filesDeeds, fileDeeds, paths]

-- What is told to each of some generators, when that is no deed.
theorem mapM_does {γ : Type} {tell : Watch Progress Workspace → Effect (Stage Workspace) γ}
    {ws : Nat × Generator → Watch Progress Workspace} {told : Nat × Generator → γ}
    (ht : ∀ k, Does log [] (fun r => r = told k) (tell (ws k))) (ks : List (Nat × Generator)) :
    Does log [] (fun rs => rs = ks.map told) ((ks.map ws).mapM tell) := by
  induction ks
  case nil => exact .pure rfl
  case cons k ks hi =>
    rw [List.map_cons, List.map_cons, List.mapM_cons]
    refine (ht k).first ?_
    rintro _ rfl
    exact hi.map fun rs hr => by rw [hr]

theorem tellPackages_does (log : Path) (ks : List (Nat × Generator)) (names : PackageNames)
    (claimed : Nat × Generator → NameSet) (wrote : Nat × Generator → List Path) (skipTests : Bool)
    (ls : List Loaded) :
    Does log (deeds (ks.map Prod.snd) names skipTests ls)
      (fun r => ∃ claimed : Nat × Generator → NameSet,
        r.2 = ks.map fun k => watch log names k (claimed k)
          (wrote k ++ paths (deeds [k.2] names skipTests ls)))
      (Watch.tellPackages skipTests ls
        (ks.map fun k => watch log names k (claimed k) (wrote k))) := by
  induction ls generalizing claimed wrote
  case nil => exact .pure ⟨claimed, by simp [deeds, paths]⟩
  case cons l ls hi =>
    have ha : Does log [] (fun xs => xs = watches log names l.package [] ks wrote)
        ((ks.map fun k => watch log names k (claimed k) (wrote k)).mapM
          (Watch.tellPackage l.package)) := by
      refine mapM_does (fun k => ?_) ks
      refine Does.first (Does.note k.1 (.package l.package)) fun _ _ => ?_
      exact .pure rfl
    refine ha.first ?_
    rintro _ rfl
    refine (tellFiles_does l.package (shownFiles skipTests l)).bind ?_
    rintro ⟨here, _⟩ rfl
    have hs : (watches log names l.package ([] ++ shownFiles skipTests l) ks fun k => wrote k ++
        paths (filesDeeds [k.2] names l.package [] (shownFiles skipTests l))).map Prod.snd =
          ks.map fun k => watch log names k (k.2.claims names l.package (shownFiles skipTests l))
            (wrote k ++ paths (filesDeeds [k.2] names l.package [] (shownFiles skipTests l))) := by
      simp [watches]
    dsimp only
    rw [hs]
    refine (hi _ _).map ?_
    rintro ⟨later, _⟩ ⟨claimed, rfl⟩
    exact ⟨claimed, by simp [deeds, paths]⟩

-- What generators do when they are told about a module, and what they say they have written.
theorem dispatch_does (gs : List Generator) (log : Path) (skipTests : Bool) (module : String)
    (ls : List Loaded) :
    Does log (deeds gs (.ofPackages (ls.map Loaded.package)) skipTests ls)
      (fun summary => summary.written = gs.flatMap fun g =>
        paths (deeds [g] (.ofPackages (ls.map Loaded.package)) skipTests ls))
      (dispatch skipTests module ls (gs.map (·.observer (plainly log)))) := by
  have hk : (gs.zipIdx.map Prod.swap).map Prod.snd = gs := by
    rw [List.map_map]
    exact List.zipIdx_map_fst 0 gs
  have hw : Watch.ofObservers (gs.map (·.observer (plainly log))) =
      (gs.zipIdx.map Prod.swap).map fun k => watch log .empty k ∅ [] := by
    simp [Watch.ofObservers, List.zipIdx_map, watch, Generator.observer]
  have ht : Does log [] (fun ws => ws = (gs.zipIdx.map Prod.swap).map fun k =>
        watch log (.ofPackages (ls.map Loaded.package)) k ∅ [])
      (((gs.zipIdx.map Prod.swap).map fun k => watch log .empty k ∅ []).mapM
        (Watch.tellModule (.ofPackages (ls.map Loaded.package)))) := by
    refine mapM_does (fun k => ?_) _
    refine Does.first (Does.note k.1 (.module _)) fun _ _ => ?_
    exact .pure rfl
  rw [dispatch, hw]
  refine ht.first ?_
  rintro _ rfl
  have hp := tellPackages_does log (gs.zipIdx.map Prod.swap) (.ofPackages (ls.map Loaded.package))
    (fun _ => ∅) (fun _ => []) skipTests ls
  rw [hk] at hp
  refine hp.map ?_
  rintro ⟨files, _⟩ ⟨claimed, rfl⟩
  have hg (f : Generator → List Path) : gs.zipIdx.flatMap (fun k => f k.1) = gs.flatMap f := by
    rw [← List.flatMap_map Prod.fst, List.zipIdx_map_fst]
  simp only [List.flatMap_map, watch, Generator.observer, List.nil_append]
  exact hg fun g => paths (deeds [g] (.ofPackages (ls.map Loaded.package)) skipTests ls)

end StandIn.Emission
