import StandIn.Proofs.Traversal.Reference

/-!
The law of dispatch: what observers are told is the reference sequence, or its beginning up to the
first failure.
-/

namespace StandIn.Traversal

open Modules

variable {σ ω : Type}

namespace Watch

variable {w : Watch σ ω} {s : Stage ω}

@[simp]
theorem ofObservers_number (os : List (Observer σ ω)) :
    (ofObservers os).map number = List.range os.length := by
  simp [ofObservers, Function.comp_def, List.zipIdx_map_snd, List.range_eq_range']

theorem hears_note {e : Event} {a : Bool} {t : σ} {y : ω}
    (h : (w.observer.hear w.state e).run s.world = (.ok (a, t), y)) :
    Completes [w] s [⟨w.number, e, a⟩] [{ w with state := t }]
      ⟨s.calls ++ [(w.number, e)], y⟩ where
  play  := .single h
  calls := rfl

theorem tellModule_follows (names : PackageNames) (w : Watch σ ω) (s : Stage ω) :
    Follows [w] s [⟨w.number, .module names, true⟩] (fun w' ws => ws = [w'])
      ((w.tellModule names).run s) :=
  ⟨_, hears_note rfl, rfl⟩

theorem tellPackage_follows (p : Package) (w : Watch σ ω) (s : Stage ω) :
    ∃ a, Follows [w] s [⟨w.number, .package p, a⟩] (fun r ws => ws = [r.2] ∧ r.1 = a)
      ((w.tellPackage p).run s) :=
  ⟨_, _, hears_note rfl, rfl, rfl⟩

-- Parts are told in order, and nothing can fail.
theorem tellParts_run (v : Visit) (ps : List Part) (w : Watch σ ω) (s : Stage ω) :
    ∃ w' s', (tellParts v ps w).run s = (.ok w', s') ∧
      Completes [w] s (ps.map (⟨w.number, .part v ·, true⟩)) [w'] s' := by
  induction ps generalizing w s
  case nil => exact ⟨w, s, rfl, .refl⟩
  case cons p ps hi =>
    have ⟨w', s', h, c⟩ := hi { w with state := w.observer.part v p w.state }
      ⟨s.calls ++ [(w.number, .part v p)], s.world⟩
    exact ⟨w', s', h, (hears_note rfl).trans c⟩

-- What is left to do with a file when all its parts have been told.
def tellEnd (v : Visit) (w : Watch σ ω) : Effect (Stage ω) (Bool × Watch σ ω) := do
  note w.number (.ends v)
  let state ← onWorld (w.observer.ends v w.state)
  return (true, { w with state })

theorem tellEnd_follows (v : Visit) (w : Watch σ ω) (s : Stage ω) :
    Follows [w] s [⟨w.number, .ends v, true⟩] (fun r ws => ws = [r.2] ∧ r.1 = true)
      ((w.tellEnd v).run s) := by
  have hn : (note w.number (.ends v)).run s = (.ok (), ⟨s.calls ++ [(w.number, .ends v)], s.world⟩) :=
    rfl
  rw [tellEnd, Effect.run_bind_ok hn]
  rcases he : (w.observer.ends v w.state).run s.world with ⟨f | t, y⟩
  case error =>
    have hw : (onWorld (w.observer.ends v w.state)).run ⟨s.calls ++ [(w.number, .ends v)], s.world⟩ =
        (.error f, ⟨s.calls ++ [(w.number, .ends v)], y⟩) := by
      simp [onWorld, he]
    rw [Effect.run_bind_error hw]
    have ht : [(⟨w.number, .ends v, true⟩ : Turn)] = [] ++ ⟨w.number, .ends v, true⟩ :: [] := rfl
    exact .intro ht .done (List.mem_singleton_self _) he (by simp)
  case ok =>
    have hw : (onWorld (w.observer.ends v w.state)).run ⟨s.calls ++ [(w.number, .ends v)], s.world⟩ =
        (.ok t, ⟨s.calls ++ [(w.number, .ends v)], y⟩) := by
      simp [onWorld, he]
    rw [Effect.run_bind_ok hw]
    exact ⟨_, hears_note (Observer.hear_ends_ok he), rfl, rfl⟩

theorem tellFile_declined {v : Visit} {t : σ} (hb : w.observer.begins v w.state = (false, t)) :
    (w.tellFile v).run s =
      (.ok (false, { w with state := t }), ⟨s.calls ++ [(w.number, .begins v)], s.world⟩) := by
  simp only [tellFile, hb]
  rfl

theorem tellFile_wanted {v : Visit} {t : σ} (hb : w.observer.begins v w.state = (true, t)) :
    (w.tellFile v).run s =
      (tellParts v (Part.ofFile v.file) { w with state := t } >>= tellEnd v).run
        ⟨s.calls ++ [(w.number, .begins v)], s.world⟩ := by
  simp only [tellFile, hb]
  rfl

theorem tellFile_follows (v : Visit) (w : Watch σ ω) (s : Stage ω) :
    ∃ a, Follows [w] s (visitTurns v w.number a) (fun r ws => ws = [r.2] ∧ r.1 = a)
      ((w.tellFile v).run s) := by
  rcases hb : w.observer.begins v w.state with ⟨a, t⟩
  have hc : Completes [w] s [⟨w.number, .begins v, a⟩] [{ w with state := t }]
      ⟨s.calls ++ [(w.number, .begins v)], s.world⟩ := hears_note (by simp [Observer.hear, hb])
  exists a
  cases a
  case false =>
    rw [tellFile_declined hb]
    exact ⟨_, hc, rfl, rfl⟩
  case true =>
    have ⟨w', s', hp, cp⟩ := tellParts_run v (Part.ofFile v.file) { w with state := t }
      ⟨s.calls ++ [(w.number, .begins v)], s.world⟩
    have hn : w'.number = w.number := by simpa using cp.play.numbers_eq
    rw [tellFile_wanted hb, Effect.run_bind_ok hp]
    refine Follows.after hc (Follows.after cp ?_)
    exact hn ▸ tellEnd_follows v w' s'

theorem tellModules_follows (names : PackageNames) (ws : List (Watch σ ω)) (s : Stage ω) :
    Follows ws s (introTurns (ws.map number) names) (fun r ws' => ws' = r)
      ((ws.mapM (tellModule names)).run s) := by
  induction ws generalizing s
  case nil => exact ⟨[], .refl, rfl⟩
  case cons w ws hi =>
    rw [List.mapM_cons]
    have ht := (tellModule_follows names w s).before ws
    refine (Follows.bind (fun _ : Unit => _) (fun _ r ws' => ws' = r) ht ?_).elim fun _ h => h
    rintro w' _ s' ⟨_, rfl, rfl⟩ -
    refine ⟨(), ((hi s').behind w').map ?_⟩
    rintro r _ - ⟨_, rfl, rfl⟩ -
    rfl

-- What observers have answered about a package, beside their numbers.
def Marked (accepts : Nat → Bool) (xs : List (Bool × Watch σ ω)) : Prop :=
  ∀ x ∈ xs, x.1 = accepts x.2.number

def numbersOf (xs : List (Bool × Watch σ ω)) : List Nat :=
  xs.map (·.2.number)

theorem numbersOf_cons (b : Bool) (w : Watch σ ω) (xs : List (Bool × Watch σ ω)) :
    numbersOf ((b, w) :: xs) = w.number :: numbersOf xs :=
  rfl

theorem askPackage_follows (p : Package) (ws : List (Watch σ ω)) (s : Stage ω)
    (h : (ws.map number).Nodup) :
    ∃ accepts : Nat → Bool,
      Follows ws s (askTurns (ws.map number) p accepts)
        (fun r ws' => ws' = r.map Prod.snd ∧ Marked accepts r)
        ((ws.mapM (tellPackage p)).run s) := by
  induction ws generalizing s
  case nil => exact ⟨fun _ => false, [], .refl, rfl, by simp [Marked]⟩
  case cons w ws hi =>
    have ⟨hw, hws⟩ := List.nodup_cons.mp h
    have ⟨a, ha⟩ := tellPackage_follows p w s
    rw [List.mapM_cons]
    have ⟨accepts, hf⟩ := Follows.bind
      (askTurns (ws.map number) p)
      (fun accepts r ws' => ws' = r.map Prod.snd ∧
        Marked (Function.update accepts w.number a) r)
      (k := fun x => ws.mapM (tellPackage p) >>= fun xs => pure (x :: xs)) (ha.before ws) ?_
    · exists Function.update accepts w.number a
      rw [List.map_cons, askTurns_cons hw]
      exact hf
    · rintro ⟨_, w'⟩ _ s' ⟨_, rfl, rfl, rfl⟩ hc
      have hn : w'.number = w.number := by simpa using hc.play.numbers_eq
      have ⟨accepts, hi⟩ := hi s' hws
      refine ⟨accepts, (hi.behind w').map ?_⟩
      rintro xs _ _ ⟨_, rfl, rfl, hm⟩ hd
      have hns : xs.map (number ∘ Prod.snd) = ws.map number := by
        simpa using hd.play.numbers_eq
      refine ⟨rfl, List.forall_mem_cons.mpr ⟨by simp [hn], fun x hx => ?_⟩⟩
      have hx' : x.2.number ≠ w.number := fun he =>
        hw (he ▸ hns ▸ List.mem_map_of_mem hx)
      rw [hm x hx, Function.update_of_ne hx']

-- A file is shown to those whose mark says so. Marks and numbers stay.
theorem tellFileAll_follows {v : Visit} {accepts : Nat → Bool} (xs : List (Bool × Watch σ ω))
    (s : Stage ω) (hm : Marked accepts xs) (h : (numbersOf xs).Nodup) :
    ∃ wants : Nat → Bool,
      Follows (xs.map Prod.snd) s (fileTurns (numbersOf xs) v accepts wants)
        (fun r ws' => ws' = r.2.map Prod.snd ∧ Marked accepts r.2 ∧
          numbersOf r.2 = numbersOf xs ∧
          r.1 = (numbersOf xs).any fun n => accepts n && wants n)
        ((tellFileAll v xs).run s) := by
  induction xs generalizing s
  case nil => exact ⟨fun _ => false, [], .refl, rfl, hm, rfl, rfl⟩
  case cons x xs hi =>
    obtain ⟨b, w⟩ := x
    have ⟨(hw : w.number ∉ numbersOf xs), hws⟩ := List.nodup_cons.mp h
    have ⟨(ha : b = accepts w.number), hms⟩ := List.forall_mem_cons.mp hm
    cases b
    case false =>
      have ⟨wants, hi⟩ := hi s hms hws
      exists Function.update wants w.number false
      rw [numbersOf_cons, fileTurns_cons hw, ← ha]
      refine (hi.behind w).map ?_
      rintro ⟨_, ys⟩ _ _ ⟨_, rfl, rfl, hy, hn, hs⟩ -
      refine ⟨rfl, List.forall_mem_cons.mpr ⟨ha, hy⟩, congrArg _ hn, ?_⟩
      rw [seen_cons hw, ← ha, Bool.false_and, Bool.false_or]
      exact hs
    case true =>
      have ⟨a, ht⟩ := tellFile_follows v w s
      have ⟨wants, hf⟩ := Follows.bind (fileTurns (numbersOf xs) v accepts)
        (fun wants (r : Bool × List (Bool × Watch σ ω)) ws' => ws' = r.2.map Prod.snd ∧
          Marked accepts r.2 ∧ numbersOf r.2 = w.number :: numbersOf xs ∧
          r.1 = (a || (numbersOf xs).any fun n => accepts n && wants n))
        (k := fun y => tellFileAll v xs >>= fun r => pure (y.1 || r.1, (true, y.2) :: r.2))
        (ht.before (xs.map Prod.snd)) ?_
      · exists Function.update wants w.number a
        rw [numbersOf_cons, fileTurns_cons hw, ← ha, seen_cons hw, ← ha]
        exact hf
      · rintro ⟨_, w'⟩ _ s' ⟨_, rfl, rfl, rfl⟩ hc
        have hn : w'.number = w.number := by simpa using hc.play.numbers_eq
        have ⟨wants, hi⟩ := hi s' hms hws
        refine ⟨wants, (hi.behind w').map ?_⟩
        rintro ⟨_, ys⟩ _ _ ⟨_, rfl, rfl, hy, hns, hs⟩ -
        exact ⟨rfl, List.forall_mem_cons.mpr ⟨hn ▸ ha, hy⟩, by rw [numbersOf_cons, hn, hns], by rw [hs]⟩

theorem tellFiles_follows {p : Package} {accepts : Nat → Bool} {numbers : List Nat}
    (h : numbers.Nodup) (fs : List SourceFile) (xs : List (Bool × Watch σ ω)) (s : Stage ω)
    (hn : numbersOf xs = numbers) (hm : Marked accepts xs) :
    ∃ wants : Nat → Nat → Bool,
      Follows (xs.map Prod.snd) s (filesTurns numbers p accepts fs wants)
        (fun r ws' => ws' = r.2.map Prod.snd ∧ r.1 = filesSeen numbers accepts fs wants)
        ((tellFiles p fs xs).run s) := by
  induction fs generalizing xs s
  case nil => exact ⟨fun _ _ => false, _, .refl, rfl, rfl⟩
  case cons f fs hi =>
    subst hn
    have ⟨wants, ht⟩ := tellFileAll_follows (v := ⟨p, f⟩) xs s hm h
    have ⟨rest, hf⟩ := Follows.bind
      (filesTurns (numbersOf xs) p accepts fs)
      (fun rest (r : Nat × List (Bool × Watch σ ω)) ws' => ws' = r.2.map Prod.snd ∧
        r.1 = ((numbersOf xs).any fun n => accepts n && wants n).toNat +
          filesSeen (numbersOf xs) accepts fs rest)
      (k := fun y => tellFiles p fs y.2 >>= fun r => pure (y.1.toNat + r.1, r.2)) ht ?_
    · exists answersCons wants rest
      rw [filesTurns_cons, filesSeen_cons]
      exact hf
    · rintro ⟨seen, ys⟩ _ s' ⟨rfl, hy, hn, rfl⟩ -
      have ⟨rest, hi⟩ := hi ys s' hn hy
      refine ⟨rest, hi.map ?_⟩
      rintro ⟨_, zs⟩ _ _ ⟨rfl, rfl⟩ -
      exact ⟨rfl, rfl⟩

theorem tellPackages_follows (skipTests : Bool) {numbers : List Nat} (h : numbers.Nodup)
    (ls : List Loaded) (ws : List (Watch σ ω)) (s : Stage ω) (hn : ws.map number = numbers) :
    ∃ a : Answers,
      Follows ws s (packagesTurns numbers skipTests ls a)
        (fun r ws' => ws' = r.2 ∧ r.1 = packagesSeen numbers skipTests ls a)
        ((tellPackages skipTests ls ws).run s) := by
  induction ls generalizing ws s
  case nil => exact ⟨Classical.arbitrary _, _, .refl, rfl, rfl⟩
  case cons l ls hi =>
    obtain ⟨accepts, hp⟩ := askPackage_follows l.package ws s (hn ▸ h)
    have hf := Follows.bind
      (fun i : (Nat → Nat → Bool) × Answers => filesTurns numbers l.package accepts (shownFiles skipTests l) i.1 ++
        packagesTurns numbers skipTests ls i.2)
      (fun i (r : Nat × List (Watch σ ω)) ws' => ws' = r.2 ∧
        r.1 = filesSeen numbers accepts (shownFiles skipTests l) i.1 +
          packagesSeen numbers skipTests ls i.2)
      (k := fun xs => tellFiles l.package (shownFiles skipTests l) xs >>= fun y =>
        tellPackages skipTests ls (y.2.map Prod.snd) >>= fun r => pure (y.1 + r.1, r.2)) hp ?_
    · obtain ⟨⟨wants, a⟩, hf⟩ := hf
      exists .cons accepts wants a
      rw [packagesTurns_cons, packagesSeen_cons, packageTurns, List.append_assoc]
      exact hn ▸ hf
    · rintro xs _ s' ⟨rfl, hm⟩ hc
      have hx : numbersOf xs = numbers := by
        simpa [numbersOf, hn, Function.comp_def] using hc.play.numbers_eq
      obtain ⟨wants, ht⟩ := tellFiles_follows h (p := l.package) (shownFiles skipTests l) xs s' hx hm
      have hb := Follows.bind (packagesTurns numbers skipTests ls)
        (fun a (r : Nat × List (Watch σ ω)) ws' => ws' = r.2 ∧
          r.1 = filesSeen numbers accepts (shownFiles skipTests l) wants +
            packagesSeen numbers skipTests ls a)
        (k := fun y => tellPackages skipTests ls (y.2.map Prod.snd) >>= fun r =>
          pure (y.1 + r.1, r.2)) ht ?_
      · obtain ⟨a, hb⟩ := hb
        exact ⟨⟨wants, a⟩, hb⟩
      · rintro ⟨_, ys⟩ _ s₂ ⟨rfl, rfl⟩ hd
        have hy : (ys.map Prod.snd).map number = numbers := by
          rw [hd.play.numbers_eq, ← hx]
          simp [numbersOf]
        obtain ⟨a, hi⟩ := hi (ys.map Prod.snd) s₂ hy
        refine ⟨a, hi.map ?_⟩
        rintro ⟨_, _⟩ _ _ ⟨rfl, rfl⟩ -
        exact ⟨rfl, rfl⟩

end Watch

-- What a traversal comes to when nothing fails.
def summaryOf (skipTests : Bool) (module : String) (ls : List Loaded) (numbers : List Nat)
    (a : Answers) (ws : List (Watch σ ω)) : Summary where
  module   := module
  packages := ls.length
  files    := packagesSeen numbers skipTests ls a
  written  := ws.flatMap fun w => w.observer.written w.state

theorem dispatch_follows (skipTests : Bool) (module : String) (ls : List Loaded)
    (os : List (Observer σ ω)) (s : Stage ω) :
    ∃ a : Answers,
      Follows (Watch.ofObservers os) s (moduleTurns (List.range os.length) skipTests ls a)
        (fun r ws => r = summaryOf skipTests module ls (List.range os.length) a ws)
        ((dispatch skipTests module ls os).run s) := by
  have ht := Watch.tellModules_follows (.ofPackages (ls.map Loaded.package))
    (Watch.ofObservers os) s
  rw [Watch.ofObservers_number] at ht
  refine Follows.bind (packagesTurns (List.range os.length) skipTests ls) _ ht ?_
  rintro _ ws s' rfl hc
  have hn : ws.map Watch.number = List.range os.length :=
    hc.play.numbers_eq.trans (Watch.ofObservers_number os)
  have ⟨a, hp⟩ := Watch.tellPackages_follows skipTests List.nodup_range ls ws s' hn
  refine ⟨a, hp.map ?_⟩
  rintro ⟨_, ws⟩ _ _ ⟨rfl, rfl⟩ -
  rfl

-- A watch whose observer has been told of the module.
def Watch.told (names : PackageNames) (w : Watch σ ω) : Watch σ ω :=
  { w with state := w.observer.module names w.state }

theorem Watch.tellModules_run (names : PackageNames) (ws : List (Watch σ ω)) (s : Stage ω) :
    ∃ calls, (ws.mapM (tellModule names)).run s = (.ok (ws.map (told names)), ⟨calls, s.world⟩) := by
  induction ws generalizing s
  case nil => exact ⟨s.calls, rfl⟩
  case cons w ws hi =>
    have ⟨calls, hc⟩ := hi ⟨s.calls ++ [(w.number, .module names)], s.world⟩
    have hw : (w.tellModule names).run s =
        (.ok (w.told names), ⟨s.calls ++ [(w.number, .module names)], s.world⟩) :=
      rfl
    exists calls
    rw [List.mapM_cons, Effect.run_bind_ok hw, Effect.run_bind_ok hc]
    rfl

-- When nothing fails, all are told of the module, and then they take the turns of its packages.
theorem dispatch_ok {skipTests : Bool} {module : String} {ls : List Loaded}
    {os : List (Observer σ ω)} {s s' : Stage ω} {summary : Summary}
    (h : (dispatch skipTests module ls os).run s = (.ok summary, s')) :
    ∃ a ws, summary.written = (ws.flatMap fun w => w.observer.written w.state) ∧
      Play ((Watch.ofObservers os).map (Watch.told (.ofPackages (ls.map Loaded.package)))) s.world
        (packagesTurns (List.range os.length) skipTests ls a) ws s'.world := by
  have ⟨calls, hc⟩ := Watch.tellModules_run (.ofPackages (ls.map Loaded.package))
    (Watch.ofObservers os) s
  rw [dispatch, Effect.run_bind_ok hc] at h
  have ⟨r, _, hp, h⟩ := Effect.run_bind_eq_ok.mp h
  simp only [Effect.run_pure, Prod.mk.injEq, Except.ok.injEq] at h
  obtain ⟨rfl, rfl⟩ := h
  have hn : ((Watch.ofObservers os).map
      (Watch.told (.ofPackages (ls.map Loaded.package)))).map Watch.number =
      List.range os.length := by
    rw [List.map_map, ← Watch.ofObservers_number]
    rfl
  have ⟨a, hf⟩ := Watch.tellPackages_follows skipTests List.nodup_range ls _
    ⟨calls, s.world⟩ hn
  rw [hp] at hf
  obtain ⟨_, c, rfl, -⟩ := hf
  exact ⟨a, r.2, rfl, c.play⟩

theorem traverse_run {getWorkspace : ω → Files.Workspace} {root : Files.Path}
    {os : List (Observer σ ω)} {s : Stage ω} (o : Options) :
    (traverse getWorkspace o root os).run s =
      match load (getWorkspace s.world) root o.excluded with
      | .ok (module, ls) => (dispatch o.skipTests module ls os).run s
      | .error f         => (.error f, s) := by
  rw [traverse, Effect.run_bind_ok (Effect.run_get s), Effect.run_bind, Effect.run_ofExcept]
  rcases load (getWorkspace s.world) root o.excluded with _ | _ <;> rfl

end StandIn.Traversal
