import StandIn.Proofs.Effect
import StandIn.Proofs.Source.Labels
import StandIn.Proofs.TypeExpr.Qualifying

/-!
Types of parsed files, as another package writes them. The names of a type are qualified and their
packages are collected, but not what stands in the texts that the type keeps as written.
-/

namespace StandIn

open Source Text

-- A type that stands somewhere in a source text.
def TypeExpr.ReadIn (source : String) (t : TypeExpr) : Prop :=
  ∃ file, Tree.ofSource? source = some file ∧ ∃ u ∈ file.subtrees, t = u.toType source.toList

theorem allWords_seenAs {names : List (Option String × String)} {qualifier : String}
    (h : AllWords names) (hq : Lexeme.IsWord qualifier.toList) :
    AllWords (names.map (seenAs qualifier)) := by
  intro x hx
  obtain ⟨⟨package, name⟩, hm, rfl⟩ := List.mem_map.mp hx
  obtain ⟨hn, hp⟩ := h _ hm
  cases package
  case some => exact ⟨hn, hp⟩
  case none =>
    refine ⟨hn, fun p hp => ?_⟩
    obtain ⟨-, hp⟩ := Option.ite_none_left_eq_some.mp hp
    exact Option.some.inj hp ▸ hq

-- A label mentions itself, if anything.
theorem IsLabel.eq_of_mentions {n : String} (h : IsLabel n) {x : Option String × String}
    (hx : x ∈ mentions n) : x = (none, n) := by
  have hp : mentions "." = [] := by decide
  rcases h with h | rfl
  case inl =>
    rw [mentions_word h] at hx
    exact List.mem_singleton.mp hx
  case inr => simp [hp] at hx

-- A package with an interface that takes a type.
def taker (type : String) : String :=
  "package svc\n\nimport \"time\"\n\ntype T struct\x7b\x7d\n\n" ++
    "type S interface \x7b\n\tDo(x " ++ type ++ ")\n\x7d\n"

namespace TypeExpr

variable {source q w qualifier : String} {t : TypeExpr}

theorem exists_readIn_of_any (source : String) (p : TypeExpr → Bool)
    (h : (Tree.ofSource? source).any fun file =>
      file.subtrees.any fun u => p (u.toType source.toList)) :
    ∃ t : TypeExpr, t.ReadIn source ∧ p t := by
  obtain ⟨file, hf, hu⟩ := (Option.any_eq_true _ _).mp h
  obtain ⟨u, hu, hp⟩ := List.any_eq_true.mp hu
  exact ⟨_, ⟨file, hf, u, hu, rfl⟩, hp⟩

theorem ReadIn.allWords (h : t.ReadIn source) : AllWords t.names := by
  obtain ⟨file, hf, u, hu, rfl⟩ := h
  have hn := Tree.named_of_source hf
  exact Tree.allWords_toType u ⟨hn.shaped.subtree hu, fun l hl =>
    hn.words l ((Tree.lexemes_subtree_sublist hu).subset hl)⟩

theorem ReadIn.allWords_qualify (h : t.ReadIn source) (hq : Lexeme.IsWord qualifier.toList) :
    AllWords (t.qualify qualifier).names :=
  names_qualify qualifier t ▸ allWords_seenAs h.allWords hq

theorem ReadIn.labels (h : t.ReadIn source) : ∀ n ∈ t.labels, IsLabel n := by
  obtain ⟨file, hf, u, hu, rfl⟩ := h
  exact fun n hn => Tree.labelled_toType u ((Tree.lettered_of_source hf).subtree hu) n
    (mem_labels.mp hn)

-- What stands in the text of a type without a package, names of the language apart.
theorem bare_iff (h : t.ReadIn source) (hq : Lexeme.IsWord qualifier.toList)
    (hw : Lexeme.IsWord w.toList) (hk : w ∉ Name.keywords) (hp : w ∉ Name.predeclared) :
    (none, w) ∈ mentions (t.qualify qualifier).text ↔
      w ∈ t.labels ∨ ∃ s ∈ t.kept, (none, w) ∈ mentions s := by
  have hnk (k : Keyword) : ((none : Option String), w) ≠ (none, k.word) := by
    intro he
    obtain rfl : w = k.word := (Prod.mk.inj he).2
    exact hk k.word_mem
  have hn : (none, w) ∉ (t.qualify qualifier).names :=
    fun h => hp (predeclared_of_seen (names_qualify qualifier t ▸ h))
  have hl : (∃ n ∈ t.labels, (none, w) ∈ mentions n) ↔ w ∈ t.labels := by
    constructor
    case mp =>
      rintro ⟨n, hm, hx⟩
      exact (Prod.mk.inj ((h.labels n hm).eq_of_mentions hx)).2 ▸ hm
    case mpr => exact fun hm => ⟨w, hm, mentions_word hw ▸ List.mem_singleton_self _⟩
  rw [mem_mentions (h.allWords_qualify hq) hnk, labels_qualify, kept_qualify, hl, or_iff_right hn]

-- The packages that something is selected from in the text of a type.
theorem selected_iff (h : t.ReadIn source) (hq : Lexeme.IsWord qualifier.toList) :
    (∃ n, (some q, n) ∈ mentions (t.qualify qualifier).text) ↔
      q ∈ NameSet.addType ∅ (t.qualify qualifier) ∨
        ∃ s ∈ t.kept, ∃ n, (some q, n) ∈ mentions s := by
  have hl (n m : String) (hn : n ∈ t.labels) : (some q, m) ∉ mentions n :=
    fun hm => nomatch (Prod.mk.inj ((h.labels n hn).eq_of_mentions hm)).1
  have hm (n : String) : (some q, n) ∈ mentions (t.qualify qualifier).text ↔
      (some q, n) ∈ (t.qualify qualifier).names ∨ ∃ s ∈ t.kept, (some q, n) ∈ mentions s := by
    have hn : ¬ ∃ l ∈ t.labels, (some q, n) ∈ mentions l := by
      rintro ⟨l, hm, hx⟩
      exact hl l n hm hx
    rw [mem_mentions (h.allWords_qualify hq) (fun k => by simp), labels_qualify, kept_qualify,
      or_iff_right hn]
  rw [NameSet.addType, NameSet.mem_foldl_insert, mem_qualifiers, or_iff_right NameSet.not_mem_empty]
  simp only [hm, exists_or]
  refine or_congr_right ?_
  constructor
  case mp =>
    rintro ⟨n, s, hs, hx⟩
    exact ⟨s, hs, n, hx⟩
  case mpr =>
    rintro ⟨s, hs, n, hx⟩
    exact ⟨n, s, hs, hx⟩

-- What another package writes for a type is complete as far as the texts are that the type keeps: no
-- other name is left without its package, and no other package is missed.
theorem qualified_but_kept (h : t.ReadIn source) (hq : Lexeme.IsWord qualifier.toList) :
    (∀ w, Lexeme.IsWord w.toList → w ∉ Name.keywords → w ∉ Name.predeclared →
      ((none, w) ∈ mentions (t.qualify qualifier).text ↔
        w ∈ t.labels ∨ ∃ s ∈ t.kept, (none, w) ∈ mentions s)) ∧
    ∀ p, (∃ n, (some p, n) ∈ mentions (t.qualify qualifier).text) ↔
      p ∈ NameSet.addType ∅ (t.qualify qualifier) ∨
        ∃ s ∈ t.kept, ∃ n, (some p, n) ∈ mentions s :=
  ⟨fun _ hw hk hp => bare_iff h hq hw hk hp, fun _ => selected_iff h hq⟩

theorem qualified_but_kept_taker :
    ∃ t : TypeExpr, t.ReadIn (taker "func(map[string]T) (n [2]time.Duration, v *T)") ∧
      Lexeme.IsWord "_svc".toList ∧
      (t.qualify "_svc").text = "func(map[string]_svc.T) (n [2]time.Duration, v *_svc.T)" ∧
      (none, "T") ∉ mentions (t.qualify "_svc").text ∧
      ∀ p, (∃ n, (some p, n) ∈ mentions (t.qualify "_svc").text) ↔
        p ∈ NameSet.addType ∅ (t.qualify "_svc") := by
  have hq : Lexeme.IsWord "_svc".toList := ⟨rfl, List.all_eq_true.mp rfl⟩
  have ⟨t, ht, hp⟩ := exists_readIn_of_any
    (taker "func(map[string]T) (n [2]time.Duration, v *T)")
    (fun t =>
      (t.qualify "_svc").text = "func(map[string]_svc.T) (n [2]time.Duration, v *_svc.T)" ∧
        t.labels = ["n", "v"] ∧ t.kept = ["2"])
    (by decide +kernel)
  obtain ⟨htext, hlabels, hkept⟩ := of_decide_eq_true hp
  obtain ⟨hbare, hselected⟩ := qualified_but_kept ht hq
  have hm : mentions "2" = [(none, "2")] := by decide
  refine ⟨t, ht, hq, htext, ?_, fun p => ?_⟩
  case refine_1 =>
    rw [hbare "T" ⟨rfl, List.all_eq_true.mp rfl⟩ (by decide) (by decide), hlabels, hkept]
    simp [hm]
  case refine_2 =>
    rw [hselected, hkept]
    simp [hm]

-- A literal that is kept hides what has to be qualified and imported.
theorem literal_missed :
    ∃ (f : SourceFile) (d : TypeDecl) (t : TypeExpr),
      SourceFile.parse "svc/svc.go" (taker "interface\x7b Get(d time.Duration) T \x7d") = .ok f ∧
      .type d ∈ f.decls ∧ d.name = "T" ∧
      t.ReadIn (taker "interface\x7b Get(d time.Duration) T \x7d") ∧
      (t.qualify "_svc").text = "interface\x7b Get(d time.Duration) T \x7d" ∧
      (none, "T") ∈ mentions (t.qualify "_svc").text ∧
      (some "time", "Duration") ∈ mentions (t.qualify "_svc").text ∧
      "time" ∉ NameSet.addType ∅ (t.qualify "_svc") := by
  have hf : (SourceFile.parse "svc/svc.go"
      (taker "interface\x7b Get(d time.Duration) T \x7d")).toOption.any fun f =>
        f.decls.any fun
          | .type d => d.name = "T"
          | _       => false := by
    decide +kernel
  have hm : mentions "interface\x7b Get(d time.Duration) T \x7d" =
      [(none, "interface"), (none, "Get"), (none, "d"), (some "time", "Duration"),
        (none, "T")] := by
    decide +kernel
  have ⟨t, ht, hp⟩ := exists_readIn_of_any
    (taker "interface\x7b Get(d time.Duration) T \x7d")
    (fun t =>
      (t.qualify "_svc").text = "interface\x7b Get(d time.Duration) T \x7d" ∧
        "time" ∉ NameSet.addType ∅ (t.qualify "_svc"))
    (by decide +kernel)
  obtain ⟨htext, htime⟩ := of_decide_eq_true hp
  obtain ⟨f, hf, hd⟩ := Failure.exists_of_any hf
  obtain ⟨d, hd, hn⟩ := List.any_eq_true.mp hd
  cases d
  case type d =>
    refine ⟨f, d, t, hf, hd, of_decide_eq_true hn, ht, htext, ?_, ?_, htime⟩
    all_goals simp [htext, hm]
  all_goals exact nomatch hn

end TypeExpr

end StandIn
