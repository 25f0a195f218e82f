import StandIn.Proofs.Files.Workspace

/-!
Where paths lead that are put together from others.
-/

namespace StandIn.Text

theorem pieces_append (sep : Char) (cs ds : List Char) :
    pieces sep (cs ++ sep :: ds) = pieces sep cs ++ pieces sep ds := by
  induction cs
  case nil => simp [pieces]
  case cons c cs hi =>
    simp only [List.cons_append, pieces, hi]
    split
    case isTrue => simp
    case isFalse =>
      cases hp : pieces sep cs
      case nil  => exact absurd hp (pieces_ne_nil sep cs)
      case cons => rfl

theorem pieces_of_not_mem {sep : Char} {cs : List Char} (h : sep ∉ cs) :
    pieces sep cs = [cs] := by
  induction cs
  case nil => rfl
  case cons c cs hi =>
    rw [List.mem_cons, not_or] at h
    have hc : (c == sep) = false := beq_false_of_ne (Ne.symm h.1)
    simp [pieces, hc, hi h.2]

end StandIn.Text

namespace StandIn.Files.Path

open Node (isStep)

variable {a b name : String} {names : List String}

theorem isStep_iff : isStep name ↔ name ≠ "" ∧ name ≠ "." ∧ name ≠ ".." ∧ '/' ∉ name.toList := by
  simp [isStep, and_assoc]

theorem steps_append_slash (a b : String) : steps (a ++ "/" ++ b) = steps a ++ steps b := by
  have hl : (a ++ "/" ++ b).toList = a.toList ++ '/' :: b.toList := by simp
  simp [steps, Text.split, hl, Text.pieces_append]

@[simp]
theorem steps_empty : steps "" = [] := by
  decide

theorem steps_piece (hs : '/' ∉ name.toList) (he : name ≠ "") (hd : name ≠ ".") :
    steps name = [name] := by
  simp [steps, Text.split, Text.pieces_of_not_mem hs, he, hd]

theorem steps_step (h : isStep name) : steps name = [name] :=
  have ⟨he, hd, _, hs⟩ := isStep_iff.mp h
  steps_piece hs he hd

theorem not_isAbsolute_step (h : isStep name) : isAbsolute name = false := by
  have ⟨_, _, _, hs⟩ := isStep_iff.mp h
  rw [isAbsolute]
  match hn : name.toList with
  | []     => rfl
  | c :: _ =>
    have hc : c ≠ '/' := fun hc => hs (by simp [hn, hc])
    simp [hc]

theorem isAbsolute_append (h : a ≠ "") (b : String) : isAbsolute (a ++ b) = isAbsolute a := by
  rw [isAbsolute, isAbsolute, String.toList_append]
  match hn : a.toList with
  | []     => exact absurd (String.toList_inj.mp hn) h
  | _ :: _ => rfl

-- A path that is not absolute goes on where the one before it ends.
theorem steps_join (h : isAbsolute b = false) : steps (join a b) = steps a ++ steps b := by
  rw [join, h, if_neg Bool.false_ne_true]
  split
  case isFalse => exact steps_append_slash a b
  case isTrue he =>
    rcases Bool.or_eq_true_iff.mp he with he | he
    case inl =>
      obtain rfl := String.isEmpty_iff.mp he
      simp
    case inr =>
      rw [endsInSlash, beq_iff_eq, List.getLast?_eq_some_iff] at he
      obtain ⟨front, hf⟩ := he
      have ha : a = .ofList front ++ "/" := by
        rw [← String.toList_inj, hf]
        simp
      have hs : steps (String.ofList front ++ "/") = steps (.ofList front) := by
        simpa using steps_append_slash (.ofList front) ""
      rw [ha, steps_append_slash, hs]

theorem isAbsolute_join (h : isAbsolute b = false) : isAbsolute (join a b) = isAbsolute a := by
  rw [join, h, if_neg Bool.false_ne_true]
  by_cases ha : a = ""
  case pos => subst ha; simpa [isAbsolute] using h
  case neg =>
    split
    case isTrue  => exact isAbsolute_append ha b
    case isFalse => rw [String.append_assoc]; exact isAbsolute_append ha _

theorem goal_join {here : Place} (h : isAbsolute b = false) :
    Workspace.goal here (join a b) = (steps b).foldl Workspace.step (Workspace.goal here a) := by
  rw [Workspace.goal, Workspace.goal, steps_join h, isAbsolute_join h, List.foldl_append]

theorem foldl_step (h : ∀ name ∈ names, isStep name) (place : Place) :
    names.foldl Workspace.step place = place ++ names := by
  induction names generalizing place
  case nil => simp
  case cons name names hi =>
    have hn : name ≠ ".." := (isStep_iff.mp (h name List.mem_cons_self)).2.2.1
    rw [List.foldl_cons, hi fun m hm => h m (List.mem_cons_of_mem _ hm), Workspace.step, if_neg hn,
      List.append_assoc, List.singleton_append]

theorem goal_join_step {here : Place} (h : isStep name) :
    Workspace.goal here (join a name) = Workspace.goal here a ++ [name] := by
  rw [goal_join (not_isAbsolute_step h), steps_step h]
  exact foldl_step (by simpa using h) _

theorem fileName_join (h : isStep name) : fileName (join a name) = name := by
  have ⟨_, _, hd, _⟩ := isStep_iff.mp h
  rw [fileName, steps_join (not_isAbsolute_step h), steps_step h, List.getLast?_append,
    List.getLast?_singleton, Option.some_or]
  split
  case h_1 he => simp_all
  case h_2 he => simp at he
  case h_3 he => exact (Option.some.inj he).symm

-- A path of names leads downwards.
structure Down (p : String) : Prop where
  relative : isAbsolute p = false
  steps    : ∀ name ∈ steps p, isStep name

theorem down_step (h : isStep name) : Down name where
  relative := not_isAbsolute_step h
  steps    := by simpa [steps_step h] using h

theorem Down.join (ha : Down a) (hb : Down b) : Down (join a b) where
  relative := (isAbsolute_join hb.relative).trans ha.relative
  steps    := by
    rw [steps_join hb.relative]
    exact List.forall_mem_append.mpr ⟨ha.steps, hb.steps⟩

end StandIn.Files.Path
