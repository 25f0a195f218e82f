import StandIn.Proofs.Decoration.Rewiring
import StandIn.Proofs.Effect
import StandIn.Proofs.Source.Range

/-!
How many calls a rewiring redirects. It counts calls that stand in the file, and so no more than the
name has uses: what is left of the uses is their number less that of the redirected calls.
-/

namespace StandIn

open Traversal

namespace Decoration.Rewiring

-- A rewiring has counted no more calls than it has been shown.
def Counts (r : Rewiring) (seen : List SelectorCall) : Prop :=
  ∀ x ∈ r.rewired, x.2.redirected ≤ seen.countP (·.operand == x.1)

namespace Counts

variable {c : Context} {source : String} {r : Rewiring} {seen : List SelectorCall}

theorem empty : Counts {} [] :=
  nofun

theorem addCall (h : Counts r seen) (call : SelectorCall) :
    Counts (r.addCall call) (seen ++ [call]) := by
  unfold Rewiring.addCall
  split
  case h_1 =>
    intro x hx
    rw [List.countP_append]
    exact Nat.le_add_right_of_le (h x hx)
  case h_2 =>
    intro x hx
    obtain ⟨⟨n, w⟩, hm, he⟩ := List.mem_map.mp hx
    have hw := h _ hm
    rw [List.countP_append, List.countP_singleton]
    dsimp only at he
    split at he
    case isTrue hn =>
      subst he hn
      simpa using hw
    case isFalse => exact he ▸ Nat.le_add_right_of_le hw

theorem addCalls (h : Counts r seen) (calls : List SelectorCall) :
    Counts (calls.foldl Rewiring.addCall r) (seen ++ calls) := by
  induction calls generalizing r seen
  case nil => simpa using h
  case cons call calls hi => simpa using hi (h.addCall call)

theorem addImport (h : Counts r seen) (i : ImportSpec) : Counts (r.addImport c source i) seen := by
  unfold Rewiring.addImport
  split
  case h_1 => exact h
  case h_2 =>
    refine List.forall_mem_append.mpr ⟨fun x hx => h x (List.mem_filter.mp hx).1, ?_⟩
    exact List.forall_mem_singleton.mpr (Nat.zero_le _)

theorem addPart (h : Counts r seen) (p : Part) :
    Counts (r.addPart c source p) (seen ++ p.calls) := by
  cases p
  case importSpec i => simpa [Part.calls, Rewiring.addPart] using h.addImport i
  case func d =>
    simp only [Rewiring.addPart, Part.calls]
    cases d.body
    case none   => simpa using h
    case some b => exact h.addCalls b.calls
  all_goals simpa [Rewiring.addPart, Part.calls] using h

theorem ofParts (h : Counts r seen) (ps : List Part) :
    Counts (ps.foldl (Rewiring.addPart c source) r) (seen ++ ps.flatMap Part.calls) := by
  induction ps generalizing r seen
  case nil => simpa using h
  case cons p ps hi => simpa using hi (h.addPart p)

theorem ofFile (c : Context) (f : SourceFile) : Counts (ofFile c f) f.calls :=
  f.calls_eq ▸ empty.ofParts (Part.ofFile f)

end Counts

end Decoration.Rewiring

open Decoration

-- The ranges that are kept of a file are right, and so edits at them change what they should. No
-- rewiring redirects more calls through a name than the name has uses.
theorem SourceFile.parse_faithful {path : Files.Path} {source : String} {f : SourceFile}
    (h : parse path source = .ok f) : f.source = source ∧ f.InPlace ∧
      ∀ c, ∀ x ∈ (Rewiring.ofFile c f).rewired, x.2.redirected ≤ f.refCount x.1 := by
  have hf := inPlace h
  refine ⟨?_, hf, fun c x hx => ?_⟩
  · rw [parse] at h
    split at h
    case h_1 => rw [← Except.ok.inj h]; rfl
    case h_2 => simp at h
  · exact Nat.le_trans (Rewiring.Counts.ofFile c f x hx) (hf.counts x.1)

-- Calls among the arguments of calls, in a function literal, and of what a call returns.
def nested : String :=
  "package main\nimport x /* near */ \"m/handler\"\ntype T struct\x7b\x7d\n" ++
    "func main() \x7b x.F(y.G(func() \x7b x.H() \x7d)).I() \x7d\n"

theorem SourceFile.parse_faithful_nested :
    ∃ f, parse "main.go" nested = .ok f ∧ f.ranges.length = 3 ∧
      f.calls.map SelectorCall.operand = ["x", "y", "x"] ∧ f.InPlace ∧
      ∀ x ∈ (Rewiring.ofFile Rewiring.program f).rewired, x.2.redirected ≤ f.refCount x.1 := by
  have hp : (parse "main.go" nested).toOption.any fun f =>
      f.ranges.length = 3 && f.calls.map SelectorCall.operand = ["x", "y", "x"] := by
    decide +kernel
  obtain ⟨f, h, hf⟩ := Failure.exists_of_any hp
  obtain ⟨-, hi, hc⟩ := parse_faithful h
  simp only [Bool.and_eq_true, decide_eq_true_eq] at hf
  exact ⟨f, h, hf.1, hf.2, hi, hc Rewiring.program⟩

end StandIn
