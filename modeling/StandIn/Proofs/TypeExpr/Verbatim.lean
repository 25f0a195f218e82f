import StandIn.Proofs.Source.Names
import StandIn.Proofs.Text.Mentions

/-!
What the text of a type mentions: the names of the type, the words of Go's syntax, the names of
results, and whatever stands in the texts that are kept as written.
-/

namespace StandIn

open Source Text

-- The words that types are written with.
inductive TypeExpr.Keyword where
  | map
  | chan
  | func

inductive TypeExpr.Piece where
  | name (x : Option String × String)
  | keyword (k : TypeExpr.Keyword)
  | label (name : String)
  | verbatim (text : String)

mutual

-- What a type is written with, in reading order, marks apart.
def TypeExpr.pieces : TypeExpr → List TypeExpr.Piece
  | .named package name args => .name (package, name) :: TypeExpr.piecesOf args
  | .pointer elem | .slice elem => elem.pieces
  | .array length elem => .verbatim length :: elem.pieces
  | .map key value     => .keyword .map :: (key.pieces ++ value.pieces)
  | .chan _ elem       => .keyword .chan :: elem.pieces
  | .func signature    => .keyword .func :: signature.pieces
  | .interface text | .struct text | .other text => [.verbatim text]

def TypeExpr.piecesOf : List TypeExpr → List TypeExpr.Piece
  | []      => []
  | t :: ts => t.pieces ++ TypeExpr.piecesOf ts

def Signature.pieces : Signature → List TypeExpr.Piece
  | ⟨params, results⟩ =>
    Param.piecesOf false params ++ Param.piecesOf (results.all (·.name.isSome)) results

def Param.piecesOf (named : Bool) : List Param → List TypeExpr.Piece
  | []                     => []
  | ⟨name, type, _⟩ :: ps =>
    (if named then name.toList.map .label else []) ++ type.pieces ++ Param.piecesOf named ps

end

theorem Param.piecesOf_eq (named : Bool) (ps : List Param) :
    piecesOf named ps = ps.flatMap fun p =>
      (if named then p.name.toList.map .label else []) ++ p.type.pieces := by
  induction ps
  case nil => rfl
  case cons p ps hi =>
    obtain ⟨name, type, _⟩ := p
    rw [piecesOf, hi, List.flatMap_cons]

theorem Param.piecesOf_append (named : Bool) (ps qs : List Param) :
    piecesOf named (ps ++ qs) = piecesOf named ps ++ piecesOf named qs := by
  rw [piecesOf_eq, List.flatMap_append, ← piecesOf_eq, ← piecesOf_eq]

namespace TypeExpr

namespace Keyword

def word : Keyword → String
  | map  => "map"
  | chan => "chan"
  | func => "func"

theorem word_mem (k : Keyword) : k.word ∈ Name.keywords := by
  cases k <;> decide

theorem isWord (k : Keyword) : Lexeme.IsWord k.word.toList := by
  cases k <;> exact ⟨rfl, List.all_eq_true.mp rfl⟩

end Keyword

namespace Piece

def mentions : Piece → List (Option String × String)
  | .name x        => [x]
  | .keyword k     => [(none, k.word)]
  | .label n       => Text.mentions n
  | .verbatim text => Text.mentions text

-- A piece as another package writes it.
def seenAs (qualifier : String) : Piece → Piece
  | .name x => .name (StandIn.seenAs qualifier x)
  | p       => p

def name? : Piece → Option (Option String × String)
  | .name x => some x
  | _       => none

def label? : Piece → Option String
  | .label n => some n
  | _        => none

def verbatim? : Piece → Option String
  | .verbatim text => some text
  | _              => none

variable {p : Piece}

@[simp]
theorem name?_eq_some {x : Option String × String} : p.name? = some x ↔ p = .name x := by
  cases p <;> simp [name?]

@[simp]
theorem label?_eq_some {n : String} : p.label? = some n ↔ p = .label n := by
  cases p <;> simp [label?]

@[simp]
theorem verbatim?_eq_some {text : String} : p.verbatim? = some text ↔ p = .verbatim text := by
  cases p <;> simp [verbatim?]

end Piece

-- The texts in a type that are kept as written: literals, constraints and the lengths of arrays.
def kept (t : TypeExpr) : List String :=
  t.pieces.filterMap Piece.verbatim?

-- The names of results that are written.
def labels (t : TypeExpr) : List String :=
  t.pieces.filterMap Piece.label?

end TypeExpr

theorem TypeExpr.text_args (package : Option String) (name : String) (t : TypeExpr)
    (ts : List TypeExpr) :
    (named package name (t :: ts)).text =
      (named package name []).text ++ "[" ++ commaSeparated (texts (t :: ts)) ++ "]" := by
  simp [text, String.append_assoc]

theorem mentions_named {package : Option String} {name : String} (args : List TypeExpr)
    (hn : Lexeme.IsWord name.toList) (hp : ∀ p ∈ package, Lexeme.IsWord p.toList) :
    mentions (TypeExpr.named package name args).text =
      (package, name) :: (TypeExpr.texts args).flatMap mentions := by
  have hs : mentions (TypeExpr.named package name []).text = [(package, name)] := by
    cases package
    case none   => simpa [TypeExpr.text] using mentions_word hn
    case some p => simpa [TypeExpr.text] using mentions_selection (hp p rfl) hn
  cases args
  case nil  => rw [hs, TypeExpr.texts, List.flatMap_nil]
  case cons =>
    rw [TypeExpr.text_args, mentions_before rfl (by decide), mentions_between rfl (by decide), hs,
      mentions_commaSeparated, List.singleton_append]

-- A result, with its name or without.
theorem mentions_result (named : Bool) (p : Param) (ps : List Param) :
    (Param.resultTexts named (p :: ps)).flatMap mentions =
      (if named then p.name.toList.map .label else []).flatMap TypeExpr.Piece.mentions ++
        mentions p.type.text ++ (Param.resultTexts named ps).flatMap mentions := by
  obtain ⟨name, type, variadic⟩ := p
  cases named
  case false => simp [Param.resultTexts]
  case true  =>
    cases name
    case none   => simp [Param.resultTexts]
    case some n =>
      rw [Param.resultTexts, List.flatMap_cons, mentions_between rfl (by decide)]
      simp [TypeExpr.Piece.mentions]

-- What is made with a keyword, a mark and a type.
theorem mentions_keyword {cut : String} (k : TypeExpr.Keyword) (h : cut.toList.all isBreak)
    (hn : cut ≠ "") (t : String) :
    mentions (k.word ++ cut ++ t) = (none, k.word) :: mentions t := by
  rw [mentions_between h hn, mentions_word k.isWord]
  rfl

theorem mentions_chan (direction : Direction) (elem : TypeExpr) :
    mentions (TypeExpr.chan direction elem).text = (none, "chan") :: mentions elem.text := by
  have hb : "chan " = TypeExpr.Keyword.chan.word ++ " " := rfl
  have hs : "chan<- " = TypeExpr.Keyword.chan.word ++ "<- " := rfl
  have hr : "<-chan " = "<-" ++ (TypeExpr.Keyword.chan.word ++ " ") := rfl
  cases direction
  case both    => rw [TypeExpr.text, hb, mentions_keyword .chan rfl (by decide)]; rfl
  case send    => rw [TypeExpr.text, hs, mentions_keyword .chan rfl (by decide)]; rfl
  case receive =>
    rw [TypeExpr.text, hr, String.append_assoc, mentions_behind rfl,
      mentions_keyword .chan rfl (by decide)]
    rfl

mutual

theorem TypeExpr.mentions_text :
    ∀ t : TypeExpr, AllWords t.names → mentions t.text = t.pieces.flatMap TypeExpr.Piece.mentions
  | .named package name args, h => by
    have ⟨⟨hn, hp⟩, ha⟩ := allWords_cons.mp h
    rw [mentions_named args hn hp, TypeExpr.mentions_texts args ha, TypeExpr.pieces,
      List.flatMap_cons]
    rfl
  | .pointer elem, h        => (mentions_behind rfl _).trans (TypeExpr.mentions_text elem h)
  | .slice elem, h          => (mentions_behind rfl _).trans (TypeExpr.mentions_text elem h)
  | .array length elem, h   => by
    rw [TypeExpr.text, mentions_between rfl (by decide), mentions_behind rfl,
      TypeExpr.mentions_text elem h]
    rfl
  | .map key value, h       => by
    have ⟨hk, hv⟩ := allWords_append.mp h
    have hm : TypeExpr.text (.map key value) =
        TypeExpr.Keyword.map.word ++ "[" ++ (key.text ++ "]" ++ value.text) := by
      simp [TypeExpr.text, TypeExpr.Keyword.word, String.append_assoc]
    rw [hm, mentions_keyword .map rfl (by decide), mentions_between rfl (by decide),
      TypeExpr.mentions_text key hk, TypeExpr.mentions_text value hv, TypeExpr.pieces,
      List.flatMap_cons, List.flatMap_append]
    rfl
  | .chan direction elem, h => by
    rw [mentions_chan, TypeExpr.mentions_text elem h]
    rfl
  | .func signature, h      => by
    rw [TypeExpr.text, Signature.mentions_func signature h]
    rfl
  | .interface _, _         => (List.append_nil _).symm
  | .struct _, _            => (List.append_nil _).symm
  | .other _, _             => (List.append_nil _).symm

theorem TypeExpr.mentions_texts :
    ∀ ts, AllWords (TypeExpr.namesOf ts) →
      (TypeExpr.texts ts).flatMap mentions =
        (TypeExpr.piecesOf ts).flatMap TypeExpr.Piece.mentions
  | [], _      => rfl
  | t :: ts, h => by
    have ⟨ht, hs⟩ := allWords_append.mp h
    rw [TypeExpr.texts, List.flatMap_cons, TypeExpr.mentions_text t ht,
      TypeExpr.mentions_texts ts hs, TypeExpr.piecesOf, List.flatMap_append]

theorem Signature.mentions_func :
    ∀ s : Signature, AllWords s.names →
      mentions ("func" ++ s.unnamedText) =
        (none, "func") :: s.pieces.flatMap TypeExpr.Piece.mentions
  | ⟨params, results⟩, h => by
    have ⟨hp, hr⟩ := allWords_append.mp h
    have hm : "func" ++ Signature.unnamedText ⟨params, results⟩ =
        TypeExpr.Keyword.func.word ++ "(" ++ (commaSeparated (Param.typeTexts params) ++ ")" ++
          resultList (Param.resultTexts (results.all (·.name.isSome)) results)
            (results.all (·.name.isSome))) := by
      simp only [Signature.unnamedText, TypeExpr.Keyword.word, String.append_assoc]
    rw [hm, mentions_keyword .func rfl (by decide), mentions_between rfl (by decide),
      mentions_commaSeparated, mentions_resultList,
      Param.mentions_typeTexts params hp, Param.mentions_resultTexts _ results hr,
      Signature.pieces, List.flatMap_append]
    rfl

theorem Param.mentions_typeTexts :
    ∀ ps, AllWords (Param.namesOf ps) →
      (Param.typeTexts ps).flatMap mentions =
        (Param.piecesOf false ps).flatMap TypeExpr.Piece.mentions
  | [], _                            => rfl
  | ⟨name, type, variadic⟩ :: ps, h => by
    have ⟨ht, hs⟩ := allWords_append.mp h
    have hv : mentions (Param.typeText ⟨name, type, variadic⟩) = mentions type.text := by
      cases variadic
      case true  => exact mentions_ellipsis _
      case false => rfl
    rw [Param.typeTexts, List.flatMap_cons, hv, TypeExpr.mentions_text type ht,
      Param.mentions_typeTexts ps hs, Param.piecesOf, List.flatMap_append, List.flatMap_append]
    rfl

theorem Param.mentions_resultTexts (named : Bool) :
    ∀ ps, AllWords (Param.namesOf ps) →
      (Param.resultTexts named ps).flatMap mentions =
        (Param.piecesOf named ps).flatMap TypeExpr.Piece.mentions
  | [], _                     => rfl
  | ⟨name, type, _⟩ :: ps, h => by
    have ⟨ht, hs⟩ := allWords_append.mp h
    rw [mentions_result, TypeExpr.mentions_text type ht, Param.mentions_resultTexts named ps hs,
      Param.piecesOf, List.flatMap_append, List.flatMap_append]

end

mutual

-- The names of a type stand among its pieces.
theorem TypeExpr.names_pieces : ∀ t : TypeExpr, t.pieces.filterMap TypeExpr.Piece.name? = t.names
  | .named package name args => by
    rw [TypeExpr.pieces, TypeExpr.names, ← TypeExpr.namesOf_pieces args]
    rfl
  | .pointer elem     => TypeExpr.names_pieces elem
  | .slice elem       => TypeExpr.names_pieces elem
  | .array _ elem     => TypeExpr.names_pieces elem
  | .chan _ elem      => TypeExpr.names_pieces elem
  | .map key value    => by
    rw [TypeExpr.names, ← TypeExpr.names_pieces key, ← TypeExpr.names_pieces value,
      ← List.filterMap_append]
    rfl
  | .func signature   => Signature.names_pieces signature
  | .interface _      => rfl
  | .struct _         => rfl
  | .other _          => rfl

theorem TypeExpr.namesOf_pieces :
    ∀ ts, (TypeExpr.piecesOf ts).filterMap TypeExpr.Piece.name? = TypeExpr.namesOf ts
  | []      => rfl
  | t :: ts => by
    rw [TypeExpr.piecesOf, List.filterMap_append, TypeExpr.names_pieces t,
      TypeExpr.namesOf_pieces ts, TypeExpr.namesOf]

theorem Signature.names_pieces :
    ∀ s : Signature, s.pieces.filterMap TypeExpr.Piece.name? = s.names
  | ⟨params, results⟩ => by
    rw [Signature.pieces, List.filterMap_append, Param.namesOf_pieces _ params,
      Param.namesOf_pieces _ results, Signature.names]

theorem Param.namesOf_pieces (named : Bool) :
    ∀ ps, (Param.piecesOf named ps).filterMap TypeExpr.Piece.name? = Param.namesOf ps
  | []                     => rfl
  | ⟨name, type, _⟩ :: ps => by
    have hl : (if named then name.toList.map .label else []).filterMap TypeExpr.Piece.name? =
        [] := by
      cases named
      case false => rfl
      case true  => cases name <;> rfl
    rw [Param.piecesOf, List.filterMap_append, List.filterMap_append, hl,
      TypeExpr.names_pieces type, Param.namesOf_pieces named ps, Param.namesOf, List.nil_append]

end

mutual

-- Qualifying a type changes no piece but its names.
theorem TypeExpr.pieces_qualify (qualifier : String) :
    ∀ t : TypeExpr, (t.qualify qualifier).pieces =
      t.pieces.map (TypeExpr.Piece.seenAs qualifier)
  | .named (some _) _ args => by
    rw [TypeExpr.qualify, TypeExpr.pieces, TypeExpr.piecesOf_qualifyAll qualifier args]
    rfl
  | .named none _ args     => by
    rw [TypeExpr.qualify, TypeExpr.pieces, TypeExpr.piecesOf_qualifyAll qualifier args]
    rfl
  | .pointer elem          => TypeExpr.pieces_qualify qualifier elem
  | .slice elem            => TypeExpr.pieces_qualify qualifier elem
  | .array _ elem          => by
    rw [TypeExpr.qualify, TypeExpr.pieces, TypeExpr.pieces_qualify qualifier elem]
    rfl
  | .chan _ elem           => by
    rw [TypeExpr.qualify, TypeExpr.pieces, TypeExpr.pieces_qualify qualifier elem]
    rfl
  | .map key value         => by
    rw [TypeExpr.qualify, TypeExpr.pieces, TypeExpr.pieces_qualify qualifier key,
      TypeExpr.pieces_qualify qualifier value, TypeExpr.pieces, List.map_cons, List.map_append]
    rfl
  | .func signature        => by
    rw [TypeExpr.qualify, TypeExpr.pieces, Signature.pieces_qualify qualifier signature]
    rfl
  | .interface _           => rfl
  | .struct _              => rfl
  | .other _               => rfl

theorem TypeExpr.piecesOf_qualifyAll (qualifier : String) :
    ∀ ts, TypeExpr.piecesOf (TypeExpr.qualifyAll qualifier ts) =
      (TypeExpr.piecesOf ts).map (TypeExpr.Piece.seenAs qualifier)
  | []      => rfl
  | t :: ts => by
    rw [TypeExpr.qualifyAll, TypeExpr.piecesOf, TypeExpr.piecesOf,
      TypeExpr.pieces_qualify qualifier t, TypeExpr.piecesOf_qualifyAll qualifier ts,
      List.map_append]

theorem Signature.pieces_qualify (qualifier : String) :
    ∀ s : Signature, (s.qualify qualifier).pieces =
      s.pieces.map (TypeExpr.Piece.seenAs qualifier)
  | ⟨params, results⟩ => by
    have hn : (Param.qualifyAll qualifier results).all (·.name.isSome) =
        results.all (·.name.isSome) := by
      rw [Param.qualifyAll_eq, List.all_map]
      rfl
    rw [Signature.qualify, Signature.pieces, Signature.pieces, hn,
      Param.piecesOf_qualifyAll qualifier _ params, Param.piecesOf_qualifyAll qualifier _ results,
      List.map_append]

theorem Param.piecesOf_qualifyAll (qualifier : String) (named : Bool) :
    ∀ ps, Param.piecesOf named (Param.qualifyAll qualifier ps) =
      (Param.piecesOf named ps).map (TypeExpr.Piece.seenAs qualifier)
  | []                     => rfl
  | ⟨name, type, _⟩ :: ps => by
    have hl : (if named then name.toList.map TypeExpr.Piece.label else []) =
        (if named then name.toList.map .label else []).map (TypeExpr.Piece.seenAs qualifier) := by
      cases named
      case false => rfl
      case true  => cases name <;> rfl
    rw [Param.qualifyAll, Param.piecesOf, Param.piecesOf, TypeExpr.pieces_qualify qualifier type,
      Param.piecesOf_qualifyAll qualifier named ps, List.map_append, List.map_append, ← hl]

end

namespace TypeExpr

variable {t : TypeExpr} {q w qualifier : String}

theorem kept_qualify (qualifier : String) (t : TypeExpr) : (t.qualify qualifier).kept = t.kept := by
  have hp : Piece.verbatim? ∘ Piece.seenAs qualifier = Piece.verbatim? := by
    funext p
    cases p <;> rfl
  rw [kept, pieces_qualify, List.filterMap_map, hp, kept]

theorem labels_qualify (qualifier : String) (t : TypeExpr) :
    (t.qualify qualifier).labels = t.labels := by
  have hp : Piece.label? ∘ Piece.seenAs qualifier = Piece.label? := by
    funext p
    cases p <;> rfl
  rw [labels, pieces_qualify, List.filterMap_map, hp, labels]

theorem mem_kept {text : String} : text ∈ t.kept ↔ .verbatim text ∈ t.pieces := by
  simp [kept]

theorem mem_labels {n : String} : n ∈ t.labels ↔ .label n ∈ t.pieces := by
  simp [labels]

theorem mem_names {x : Option String × String} : x ∈ t.names ↔ .name x ∈ t.pieces := by
  simp [← names_pieces]

-- Keywords apart, a type mentions its names, and what its labels and the texts it keeps mention.
theorem mem_mentions {x : Option String × String} (h : AllWords t.names)
    (hk : ∀ k : Keyword, x ≠ (none, k.word)) :
    x ∈ mentions t.text ↔
      x ∈ t.names ∨ (∃ n ∈ t.labels, x ∈ mentions n) ∨ ∃ s ∈ t.kept, x ∈ mentions s := by
  rw [mentions_text t h, List.mem_flatMap]
  constructor
  case mp =>
    rintro ⟨p, hp, hx⟩
    cases p
    case name y     => exact .inl (mem_names.mpr (List.mem_singleton.mp hx ▸ hp))
    case keyword k  => exact absurd (List.mem_singleton.mp hx) (hk k)
    case label n    => exact .inr (.inl ⟨n, mem_labels.mpr hp, hx⟩)
    case verbatim s => exact .inr (.inr ⟨s, mem_kept.mpr hp, hx⟩)
  case mpr =>
    rintro (hx | ⟨n, hn, hx⟩ | ⟨s, hs, hx⟩)
    case inl     => exact ⟨_, mem_names.mp hx, List.mem_singleton_self x⟩
    case inr.inl => exact ⟨_, mem_labels.mp hn, hx⟩
    case inr.inr => exact ⟨_, mem_kept.mp hs, hx⟩

end TypeExpr

end StandIn
