import StandIn.Emission.Generator
import StandIn.Proofs.Files.Workspace
import StandIn.Proofs.Traversal.Turn

/-!
What generators leave behind: when a play is over, every file that they made stands where it
belongs, and they have written no others.
-/

namespace StandIn.Emission

open Files Modules Traversal Workspace

variable {e : Emitter} {target : Path} {text printed : String} {x y : Workspace}

namespace Emitter

theorem accepted_ok (h : (e.accepted target text).run x = (.ok printed, y)) :
    x = y ∧ e.printer target text = .ok printed ∧ ∃ f, SourceFile.parse target printed = .ok f := by
  unfold accepted at h
  split at h
  case h_1 =>
    have ⟨_, _, _, h⟩ := Effect.run_bind_eq_ok.mp h
    simp at h
  case h_2 made hp =>
    split at h
    case h_1 f hf =>
      simp only [Effect.run_pure, Prod.mk.injEq, Except.ok.injEq] at h
      obtain ⟨rfl, rfl⟩ := h
      exact ⟨rfl, hp, f, hf⟩
    case h_2 =>
      have ⟨_, _, _, h⟩ := Effect.run_bind_eq_ok.mp h
      simp at h

theorem emit_ok {path : Path} (h : (e.emit target text).run x = (.ok path, y)) :
    path = target ∧ ∃ printed, e.printer target text = .ok printed ∧
      (∃ f, SourceFile.parse target printed = .ok f) ∧ y.Holds target printed.toUTF8 ∧
      Extends (goal x.here target) x y := by
  have ⟨printed, _, ha, hk⟩ := Effect.run_bind_eq_ok.mp h
  have ⟨_, x', hm, hk⟩ := Effect.run_bind_eq_ok.mp hk
  have ⟨_, _, hw, hr⟩ := Effect.run_bind_eq_ok.mp hk
  simp only [Effect.run_pure, Prod.mk.injEq, Except.ok.injEq] at hr
  obtain ⟨rfl, rfl⟩ := hr
  obtain ⟨rfl, hp, hf⟩ := accepted_ok ha
  have hx := makeParent_extends (goal x.here target) hm
  have ⟨hh, hy⟩ := writeText_holds hw
  rw [hx.here] at hy
  exact ⟨rfl, printed, hp, hf, hh, hx.trans hy⟩

end Emitter

-- What a generator has made of a file stands where it belongs, unless it has made nothing.
inductive Made (g : Generator) (e : Emitter) (names : PackageNames) (v : Visit)
    (written : List Path) (x : Workspace) : Prop
  | nothing {claimed claimed'} (makes : (g.text names v).run claimed = (.ok none, claimed'))
  | file {claimed claimed' text printed f}
      (makes   : (g.text names v).run claimed = (.ok (some text), claimed'))
      (prints  : e.printer (g.target v) text = .ok printed)
      (parses  : SourceFile.parse (g.target v) printed = .ok f)
      (holds   : x.Holds (g.target v) printed.toUTF8)
      (written : g.target v ∈ written)

variable {g : Generator} {names : PackageNames} {v : Visit} {written written' : List Path}

theorem Made.extends {place : Place} (hx : Extends place x y)
    (hp : goal x.here (g.target v) ≠ place) (hw : written ⊆ written') :
    Made g e names v written x → Made g e names v written' y
  | nothing makes                           => nothing makes
  | file makes prints parses holds written =>
    file makes prints parses (hx.holds hp holds) (hw written)

theorem Made.mono (hw : written ⊆ written') :
    Made g e names v written x → Made g e names v written' x
  | nothing makes                           => nothing makes
  | file makes prints parses holds written => file makes prints parses holds (hw written)

theorem Generator.ends_ok {p p' : Progress} (h : ((g.observer e).ends v p).run x = (.ok p', y)) :
    p'.names = p.names ∧ Made g e p.names v p'.written y ∧
      Extends (goal x.here (g.target v)) x y ∧
      p.written ⊆ p'.written ∧ p'.written ⊆ p.written ++ [g.target v] := by
  simp only [observer] at h
  rcases ht : (g.text p.names v).run p.claimed with ⟨r, claimed⟩
  rw [ht] at h
  obtain ⟨made, _, hr, h⟩ := Effect.run_bind_eq_ok.mp h
  simp only [Effect.run_ofExcept, Prod.mk.injEq] at hr
  obtain ⟨rfl, rfl⟩ := hr
  cases made
  case none =>
    simp only [Effect.run_pure, Prod.mk.injEq, Except.ok.injEq] at h
    obtain ⟨rfl, rfl⟩ := h
    exact ⟨rfl, .nothing ht, .refl _ x, List.Subset.refl _, List.subset_append_left _ _⟩
  case some text =>
    obtain ⟨path, _, he, h⟩ := Effect.run_bind_eq_ok.mp h
    simp only [Effect.run_pure, Prod.mk.injEq, Except.ok.injEq] at h
    obtain ⟨rfl, rfl⟩ := h
    obtain ⟨rfl, printed, hp, ⟨f, hf⟩, hh, hx⟩ := Emitter.emit_ok he
    exact ⟨rfl, .file ht hp hf hh (by simp), hx, List.subset_append_left _ _, List.Subset.refl _⟩

-- What a generator answers.
def Generator.reply (g : Generator) : Event → Bool
  | .package p => g.wantsPackage p
  | .begins v  => g.wantsFile v
  | _          => true

theorem Generator.hear_reply {event : Event} {p p' : Progress} {a : Bool}
    (h : ((g.observer e).hear p event).run x = (.ok (a, p'), y)) : a = g.reply event := by
  cases event
  case ends v =>
    have ⟨_, _, _, hp⟩ := Effect.run_bind_eq_ok.mp h
    simp only [Effect.run_pure, Prod.mk.injEq, Except.ok.injEq] at hp
    exact hp.1.1.symm
  all_goals
    simp only [Observer.hear, observer, Effect.run_pure, Prod.mk.injEq, Except.ok.injEq] at h
    exact h.1.1.symm

-- What is heard of packages and files changes nothing but at the end of a file.
theorem Generator.hear_idle {event : Event} {p p' : Progress} {a : Bool}
    (hm : ∀ names, event ≠ .module names) (he : ∀ v, event ≠ .ends v)
    (h : ((g.observer e).hear p event).run x = (.ok (a, p'), y)) :
    y = x ∧ p'.names = p.names ∧ p'.written = p.written := by
  cases event
  case module names => exact absurd rfl (hm names)
  case ends v       => exact absurd rfl (he v)
  all_goals
    simp only [Observer.hear, observer, Effect.run_pure, Prod.mk.injEq, Except.ok.injEq] at h
    obtain ⟨⟨rfl, rfl⟩, rfl⟩ := h
    exact ⟨rfl, rfl, rfl⟩

-- Watches of generators, which go by their places in a list.
def Watched (gs : List Generator) (e : Emitter) (ws : List (Watch Progress Workspace)) : Prop :=
  ∀ w ∈ ws, ∃ g, gs[w.number]? = some g ∧ w.observer = g.observer e

def writtenOf (ws : List (Watch Progress Workspace)) : List Path :=
  ws.flatMap fun w => w.observer.written w.state

theorem mem_ofObservers {gs : List Generator} {w : Watch Progress Workspace}
    (h : w ∈ Watch.ofObservers (gs.map (·.observer e))) :
    ∃ g, gs[w.number]? = some g ∧ w.observer = g.observer e ∧ w.state = {} := by
  simp only [Watch.ofObservers, List.mem_map, Prod.exists] at h
  obtain ⟨o, n, ho, rfl⟩ := h
  rw [List.mem_zipIdx_iff_getElem?, List.getElem?_map, Option.map_eq_some_iff] at ho
  obtain ⟨g, hg, rfl⟩ := ho
  exact ⟨g, hg, rfl, rfl⟩

-- A generator has been told of the end of a file.
def Ended (ts : List Turn) (n : Nat) (v : Visit) : Prop :=
  ⟨n, .ends v, true⟩ ∈ ts

variable {gs : List Generator} {ws ws' : List (Watch Progress Workspace)} {ts hist : List Turn}

theorem forall_mem_update {P : Watch Progress Workspace → Prop}
    {front back : List (Watch Progress Workspace)} {w w' : Watch Progress Workspace}
    (h : ∀ u ∈ front ++ w :: back, P u) (hw : P w') : ∀ u ∈ front ++ w' :: back, P u := by
  simp only [List.forall_mem_append, List.forall_mem_cons] at h ⊢
  exact ⟨h.1, hw, h.2.2⟩

theorem Watched.update {front back : List (Watch Progress Workspace)}
    {w : Watch Progress Workspace} (h : Watched gs e (front ++ w :: back)) (s : Progress) :
    Watched gs e (front ++ { w with state := s } :: back) :=
  forall_mem_update h (h w (by simp))

theorem writtenOf_update (front back : List (Watch Progress Workspace))
    (w : Watch Progress Workspace) :
    writtenOf (front ++ w :: back) =
      writtenOf front ++ (w.observer.written w.state ++ writtenOf back) := by
  simp [writtenOf]

theorem mem_writtenOf_update {front back : List (Watch Progress Workspace)}
    {w : Watch Progress Workspace} {path : Path} :
    path ∈ writtenOf (front ++ w :: back) ↔
      path ∈ writtenOf (front ++ back) ∨ path ∈ w.observer.written w.state := by
  rw [writtenOf_update, writtenOf, writtenOf, writtenOf, List.flatMap_append]
  simp only [List.mem_append]
  rw [or_left_comm, or_comm]

theorem Watched.replies (hg : Watched gs e ws) (p : Play ws x ts ws' y) {t : Turn} (ht : t ∈ ts)
    {g : Generator} (hn : gs[t.number]? = some g) : t.answer = g.reply t.event := by
  induction p
  case done => simp at ht
  case turn w _ _ s _ _ _ _ hear _ hi =>
    rcases List.mem_cons.mp ht with rfl | ht
    case inr => exact hi (hg.update s) ht
    case inl =>
      have ⟨k, hk, ho⟩ := hg w (by simp)
      rw [ho] at hear
      rw [hk] at hn
      exact Option.some.inj hn ▸ Generator.hear_reply hear

-- Targets lead to different places unless a generator is told of the same file again.
def Apart (gs : List Generator) (here : Place) (ts : List Turn) : Prop :=
  ∀ n v g m u k, Ended ts n v → gs[n]? = some g → Ended ts m u → gs[m]? = some k →
    goal here (g.target v) = goal here (k.target u) → n = m ∧ v = u

theorem Apart.mono {here : Place} (h : Apart gs here ts) (hs : hist ⊆ ts) : Apart gs here hist :=
  fun n v g m u k hv hg hu hk he => h n v g m u k (hs hv) hg (hs hu) hk he

-- What holds when generators that know the names of the packages have taken some turns.
structure Kept (gs : List Generator) (e : Emitter) (names : PackageNames) (here : Place)
    (hist : List Turn) (ws : List (Watch Progress Workspace)) (x : Workspace) : Prop where
  watched : Watched gs e ws
  knows   : ∀ w ∈ ws, w.state.names = names
  here    : x.here = here
  made    : ∀ n v g, Ended hist n v → gs[n]? = some g → Made g e names v (writtenOf ws) x
  written : ∀ path ∈ writtenOf ws, ∃ n v g, Ended hist n v ∧ gs[n]? = some g ∧ path = g.target v

namespace Kept

variable {here : Place}

-- A turn other than the end of a file leaves everything as it is.
theorem idle {t : Turn} (h : Kept gs e names here hist ws x) (hw : Watched gs e ws')
    (hk : ∀ w ∈ ws', w.state.names = names) (ht : ∀ v, t.event ≠ .ends v)
    (hs : writtenOf ws' = writtenOf ws) : Kept gs e names here (hist ++ [t]) ws' x where
  watched := hw
  knows   := hk
  here    := h.here
  made n v g hv hg := by
    have hv : Ended hist n v := by
      rcases List.mem_append.mp hv with hv | hv
      · exact hv
      · exact absurd (List.mem_singleton.mp hv ▸ rfl) (ht v)
    exact hs ▸ h.made n v g hv hg
  written path hp := by
    obtain ⟨n, v, g, hv, hg⟩ := h.written path (hs ▸ hp)
    exact ⟨n, v, g, List.mem_append_left _ hv, hg⟩

-- When a file ends, what was made of others stays, because it stands elsewhere.
theorem ends {n : Nat} (h : Kept gs e names here hist ws x) (hw : Watched gs e ws')
    (hk : ∀ w ∈ ws', w.state.names = names) (hg : gs[n]? = some g)
    (ha : Apart gs here (hist ++ [⟨n, .ends v, true⟩])) (hm : Made g e names v (writtenOf ws') y)
    (hx : Extends (goal x.here (g.target v)) x y) (hs : writtenOf ws ⊆ writtenOf ws')
    (ht : ∀ path ∈ writtenOf ws', path ∈ writtenOf ws ∨ path = g.target v) :
    Kept gs e names here (hist ++ [⟨n, .ends v, true⟩]) ws' y := by
  have hn : Ended (hist ++ [⟨n, .ends v, true⟩]) n v :=
    List.mem_append_right _ (List.mem_singleton_self _)
  constructor
  case watched => exact hw
  case knows   => exact hk
  case here    => exact hx.here.trans h.here
  case made =>
    intro m u k hu hk
    by_cases he : m = n ∧ u = v
    case pos =>
      obtain ⟨rfl, rfl⟩ := he
      exact Option.some.inj (hg.symm.trans hk) ▸ hm
    case neg =>
      have hh : Ended hist m u := by
        rcases List.mem_append.mp hu with hh | hh
        · exact hh
        · simp only [List.mem_singleton, Turn.mk.injEq, Event.ends.injEq, and_true] at hh
          exact absurd hh he
      have hp : goal x.here (k.target u) ≠ goal x.here (g.target v) :=
        fun hp => he (ha m u k n v g hu hk hn hg (h.here ▸ hp))
      exact (h.made m u k hh hk).extends hx hp hs
  case written =>
    intro path hp
    rcases ht path hp with hp | rfl
    · obtain ⟨m, u, k, hu, hk⟩ := h.written path hp
      exact ⟨m, u, k, List.mem_append_left _ hu, hk⟩
    · exact ⟨n, v, g, hn, hg, rfl⟩

theorem turn {front back : List (Watch Progress Workspace)} {w : Watch Progress Workspace}
    {event : Event} {a : Bool} {s : Progress} (h : Kept gs e names here hist (front ++ w :: back) x)
    (ha : Apart gs here (hist ++ [⟨w.number, event, a⟩])) (hm : ∀ names, event ≠ .module names)
    (hear : (w.observer.hear w.state event).run x = (.ok (a, s), y)) :
    Kept gs e names here (hist ++ [⟨w.number, event, a⟩]) (front ++ { w with state := s } :: back)
      y := by
  obtain ⟨n, o, p⟩ := w
  have ⟨g, hg, ho⟩ := h.watched ⟨n, o, p⟩ (by simp)
  obtain rfl : o = g.observer e := ho
  have hw : Watched gs e (front ++ ⟨n, g.observer e, s⟩ :: back) := h.watched.update s
  have hp : p.names = names := h.knows ⟨n, g.observer e, p⟩ (by simp)
  have hk (hs : s.names = p.names) :
      ∀ w ∈ front ++ ⟨n, g.observer e, s⟩ :: back, w.state.names = names :=
    forall_mem_update h.knows (hs.trans hp)
  have hr : a = g.reply event := Generator.hear_reply hear
  by_cases he : ∃ v, event = .ends v
  case neg =>
    have he v (hv : event = .ends v) : False := he ⟨v, hv⟩
    obtain ⟨rfl, hn, hs⟩ := Generator.hear_idle hm he hear
    have hs : (g.observer e).written s = (g.observer e).written p := hs
    exact h.idle hw (hk hn) he (by rw [writtenOf_update, writtenOf_update, hs])
  case pos =>
    obtain ⟨v, rfl⟩ := he
    obtain rfl : a = true := hr
    have ⟨hn, hm, hx, hs, ht⟩ := Generator.ends_ok (Observer.ends_of_hear hear)
    have hm : Made g e names v s.written y := hp ▸ hm
    refine h.ends hw (hk hn) hg ha (hm.mono ?_) hx ?_ ?_
    · exact fun path hp => mem_writtenOf_update.mpr (.inr hp)
    · exact fun path hp =>
        mem_writtenOf_update.mpr ((mem_writtenOf_update.mp hp).imp_right (@hs path))
    · intro path hp
      rcases mem_writtenOf_update.mp hp with hp | hp
      · exact .inl (mem_writtenOf_update.mpr (.inl hp))
      · rcases List.mem_append.mp (ht hp) with hp | hp
        · exact .inl (mem_writtenOf_update.mpr (.inr hp))
        · exact .inr (List.mem_singleton.mp hp)

theorem play (p : Play ws x ts ws' y) (h : Kept gs e names here hist ws x)
    (ha : Apart gs here (hist ++ ts)) (hm : ∀ t ∈ ts, ∀ names, t.event ≠ .module names) :
    Kept gs e names here (hist ++ ts) ws' y := by
  induction p generalizing hist
  case done => simpa using h
  case turn hear _ hi =>
    rw [List.append_cons] at ha ⊢
    have ⟨ht, hs⟩ := List.forall_mem_cons.mp hm
    exact hi (h.turn (ha.mono (List.subset_append_left _ _)) ht hear) ha hs

end Kept

end StandIn.Emission
