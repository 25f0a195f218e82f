import Mathlib.Data.List.DropRight
import StandIn.Text.Position

/-!
Positions and offsets. The line of an offset counts the line feeds before it, its column counts the
bytes behind the last of them, and the two together tell the offset again.

All of this is about bytes. Characters come in only once, where the line feed is found to be the one
that is encoded with its byte.
-/

namespace StandIn.Text

def bytes (source : String) : List UInt8 :=
  source.toUTF8.data.toList

def lineFeed : UInt8 := 10

-- The bytes before an offset: all of them when it is past the end.
def bytesBefore (source : String) (offset : Nat) : List UInt8 :=
  (bytes source).take offset

-- How many lines bytes complete.
def feeds (bs : List UInt8) : Nat :=
  bs.count lineFeed

-- The line that bytes leave unfinished.
def lastLine (bs : List UInt8) : List UInt8 :=
  bs.rtakeWhile (· ≠ lineFeed)

variable {source : String} {offset : Nat} {bs cs : List UInt8}

theorem bytes_eq (source : String) :
    bytes source = source.toList.flatMap String.utf8EncodeChar := by
  rw [bytes, String.toUTF8_eq_toByteArray, ← String.utf8Encode_toList, List.utf8Encode]
  simp

theorem length_bytes (source : String) : (bytes source).length = source.utf8ByteSize :=
  rfl

theorem length_bytesBefore (h : offset ≤ source.utf8ByteSize) :
    (bytesBefore source offset).length = offset := by
  rw [bytesBefore, List.length_take, length_bytes, Nat.min_eq_left h]

-- Bytes of longer encodings are not those of characters that have a byte of their own.
theorem lineFeed_mem_utf8EncodeChar (c : Char) :
    lineFeed ∈ String.utf8EncodeChar c ↔ c = '\n' := by
  have hn (n : Nat) : lineFeed = UInt8.ofNat n ↔ n % 256 = 10 := by
    rw [← UInt8.toNat_inj, UInt8.toNat_ofNat', eq_comm]
    rfl
  have hc : c = '\n' ↔ c.val.toNat = 10 := by
    rw [← Char.val_inj, ← UInt32.toNat_inj]
    rfl
  simp only [String.utf8EncodeChar, hc]
  split
  case isTrue  => simp only [List.mem_singleton, hn]; omega
  case isFalse =>
    refine iff_of_false ?_ (by omega)
    split
    case isTrue  => simp only [List.mem_cons, List.not_mem_nil, or_false, hn]; omega
    case isFalse =>
      split
      case isTrue  => simp only [List.mem_cons, List.not_mem_nil, or_false, hn]; omega
      case isFalse => simp only [List.mem_cons, List.not_mem_nil, or_false, hn]; omega

theorem utf8EncodeChar_lineFeed : String.utf8EncodeChar '\n' = [lineFeed] := by
  decide

theorem feeds_append (bs cs : List UInt8) : feeds (bs ++ cs) = feeds bs + feeds cs :=
  List.count_append

theorem lastLine_append (h : feeds cs = 0) : lastLine (bs ++ cs) = lastLine bs ++ cs := by
  induction cs using List.reverseRecOn
  case nil => simp
  case append_singleton cs c hi =>
    rw [feeds_append, Nat.add_eq_zero_iff] at h
    have hc : c ≠ lineFeed := fun hc => by simp [feeds, hc] at h
    rw [← List.append_assoc, lastLine, List.rtakeWhile_concat, if_pos (by simpa using hc),
      ← lastLine, hi h.1, List.append_assoc]

theorem feeds_le_length (bs : List UInt8) : feeds bs ≤ bs.length :=
  List.count_le_length

theorem length_lastLine_le (bs : List UInt8) : (lastLine bs).length ≤ bs.length :=
  (List.rtakeWhile_suffix _ bs).length_le

-- What comes between two offsets is behind the first of them.
theorem bytesBefore_eq (source : String) {a b : Nat} (h : a ≤ b) :
    bytesBefore source b = bytesBefore source a ++ ((bytes source).drop a).take (b - a) := by
  rw [bytesBefore, bytesBefore, ← List.take_add, Nat.add_sub_cancel' h]

-- A source with the bytes of line feeds alone has nothing else in it.
theorem eq_ofList_replicate (h : ∀ b ∈ bytes source, b = lineFeed) :
    source = .ofList (.replicate source.utf8ByteSize '\n') := by
  have hc : ∀ c ∈ source.toList, c = '\n' := by
    intro c hc
    have ⟨b, hb⟩ := List.exists_mem_of_ne_nil _ (String.utf8EncodeChar_ne_nil (c := c))
    have hl : b = lineFeed := h b (bytes_eq source ▸ List.mem_flatMap_of_mem hc hb)
    exact (lineFeed_mem_utf8EncodeChar c).mp (hl ▸ hb)
  have hr : source.toList = .replicate source.toList.length '\n' :=
    List.eq_replicate_iff.mpr ⟨rfl, hc⟩
  have hl : source.utf8ByteSize = source.toList.length := by
    rw [← length_bytes, bytes_eq, hr]
    simp [Char.utf8Size]
  rw [hl, ← hr, String.ofList_toList]

namespace Lines

-- The offsets at which lines begin behind line feeds.
def startsOf (offset : Nat) : List UInt8 → List Nat
  | []      => []
  | b :: bs =>
    if b = lineFeed then (offset + 1) :: startsOf (offset + 1) bs else startsOf (offset + 1) bs

theorem startsOf_append (offset : Nat) (bs cs : List UInt8) :
    startsOf offset (bs ++ cs) = startsOf offset bs ++ startsOf (offset + bs.length) cs := by
  induction bs generalizing offset
  case nil => rfl
  case cons b bs hi =>
    have hl : offset + 1 + bs.length = offset + (b :: bs).length := by
      rw [List.length_cons]
      omega
    rw [List.cons_append, startsOf, startsOf, hi, hl]
    split <;> rfl

theorem length_startsOf (offset : Nat) (bs : List UInt8) :
    (startsOf offset bs).length = feeds bs := by
  induction bs generalizing offset
  case nil => rfl
  case cons b bs hi =>
    rw [startsOf, feeds, List.count_cons, ← feeds, ← hi (offset + 1)]
    by_cases hb : b = lineFeed
    case pos => simp [hb]
    case neg => simp [hb]

theorem startsOf_eq_nil (offset : Nat) (h : feeds bs = 0) : startsOf offset bs = [] :=
  List.eq_nil_of_length_eq_zero ((length_startsOf offset bs).trans h)

theorem mem_startsOf {s : Nat} (h : s ∈ startsOf offset bs) :
    offset < s ∧ s ≤ offset + bs.length := by
  induction bs generalizing offset
  case nil => contradiction
  case cons b bs hi =>
    have hs : s = offset + 1 ∨ s ∈ startsOf (offset + 1) bs := by
      rw [startsOf] at h
      split at h
      case isTrue  => exact List.mem_cons.mp h
      case isFalse => exact .inr h
    rw [List.length_cons]
    rcases hs with rfl | hs
    case inl => omega
    case inr =>
      have hs := hi hs
      omega

theorem pairwise_startsOf (offset : Nat) (bs : List UInt8) :
    (startsOf offset bs).Pairwise (· < ·) := by
  induction bs generalizing offset
  case nil => exact .nil
  case cons b bs hi =>
    rw [startsOf]
    split
    case isTrue  => exact .cons (fun _ hs => (mem_startsOf hs).1) (hi _)
    case isFalse => exact hi _

-- Characters and their bytes have the same lines.
theorem startsFrom_eq (offset : Nat) (cs : List Char) :
    startsFrom offset cs = startsOf offset (cs.flatMap String.utf8EncodeChar) := by
  induction cs generalizing offset
  case nil => rfl
  case cons c cs hi =>
    rw [List.flatMap_cons, startsOf_append, String.length_utf8EncodeChar, startsFrom, hi]
    by_cases hc : c = '\n'
    case pos =>
      subst hc
      rw [utf8EncodeChar_lineFeed]
      rfl
    case neg =>
      have hf : feeds (String.utf8EncodeChar c) = 0 :=
        List.count_eq_zero.mpr ((lineFeed_mem_utf8EncodeChar c).not.mpr hc)
      rw [startsOf_eq_nil _ hf, List.nil_append, if_neg (by simpa using hc)]

theorem starts_ofSource (source : String) :
    (ofSource source).starts = 0 :: startsOf 0 (bytes source) := by
  rw [ofSource, startsFrom_eq, bytes_eq]

-- Where the line begins that bytes leave unfinished.
def lineStart (bs : List UInt8) : Nat :=
  bs.length - (lastLine bs).length

theorem getLast?_startsOf (bs : List UInt8) :
    (0 :: startsOf 0 bs).getLast? = some (lineStart bs) := by
  induction bs using List.reverseRecOn
  case nil => rfl
  case append_singleton bs b hi =>
    rw [startsOf_append, Nat.zero_add, lineStart, lastLine, List.rtakeWhile_concat, ← lastLine]
    by_cases hb : b = lineFeed
    case pos => simp [startsOf, hb, List.getLast?_cons]
    case neg => simpa [startsOf, hb, lineStart] using hi

theorem pairwise_starts (source : String) : (ofSource source).starts.Pairwise (· < ·) := by
  rw [starts_ofSource]
  exact .cons (fun _ hs => (mem_startsOf hs).1) (pairwise_startsOf 0 _)

theorem takeWhile_append_eq_left {α : Type} {p : α → Bool} {l₁ l₂ : List α} (h₁ : ∀ a ∈ l₁, p a)
    (h₂ : ∀ a ∈ l₂, ¬ p a) : (l₁ ++ l₂).takeWhile p = l₁ := by
  rw [List.takeWhile_append_of_pos h₁]
  cases l₂
  case nil       => simp
  case cons a l₂ => rw [List.takeWhile_cons_of_neg (h₂ a List.mem_cons_self), List.append_nil]

-- Lines begin at an offset or before it when they begin behind bytes before it.
theorem starts_eq (source : String) (offset : Nat) :
    ∃ later, (ofSource source).starts = (0 :: startsOf 0 (bytesBefore source offset)) ++ later ∧
      (∀ s ∈ 0 :: startsOf 0 (bytesBefore source offset), s ≤ offset) ∧
      ∀ s ∈ later, ¬ s ≤ offset := by
  let later := startsOf (0 + (bytesBefore source offset).length) ((bytes source).drop offset)
  refine ⟨later, ?_, ?_, ?_⟩
  case refine_1 =>
    rw [starts_ofSource, List.cons_append, ← startsOf_append, bytesBefore, List.take_append_drop]
  case refine_2 =>
    refine List.forall_mem_cons.mpr ⟨Nat.zero_le offset, fun s hs => ?_⟩
    have hs := (mem_startsOf hs).2
    rw [bytesBefore, List.length_take] at hs
    omega
  case refine_3 =>
    intro s hs
    have ⟨hs, hd⟩ := mem_startsOf hs
    rw [bytesBefore, List.length_take] at hs hd
    rw [List.length_drop] at hd
    omega

theorem takeWhile_starts (source : String) (offset : Nat) :
    (ofSource source).starts.takeWhile (· ≤ offset) =
      0 :: startsOf 0 (bytesBefore source offset) := by
  have ⟨later, he, hb, hl⟩ := starts_eq source offset
  rw [he, takeWhile_append_eq_left (by simpa using hb) (by simpa using hl)]

theorem getElem?_starts (source : String) (offset : Nat) :
    (ofSource source).starts[feeds (bytesBefore source offset)]? =
      some (lineStart (bytesBefore source offset)) := by
  have ⟨later, he, _⟩ := starts_eq source offset
  have hl := length_startsOf 0 (bytesBefore source offset)
  rw [he, List.getElem?_append_left (by simp [hl]), ← getLast?_startsOf, List.getLast?_eq_getElem?]
  simp [hl]

theorem lineStart_le (source : String) (offset : Nat) :
    lineStart (bytesBefore source offset) ≤ offset := by
  rw [lineStart, bytesBefore, List.length_take]
  omega

theorem position_eq (source : String) (offset : Nat) :
    (ofSource source).position offset =
      ⟨.ofNat (feeds (bytesBefore source offset)) + 1,
        .ofNat (offset - lineStart (bytesBefore source offset))⟩ := by
  rw [position, takeWhile_starts, getLast?_startsOf, List.length_cons, length_startsOf,
    UInt32.ofNat_add]
  rfl

/-! What a search in the table of lines comes to. -/

-- A search in an increasing list finds the place of a number, or the one where it would have to be
-- put in.
inductive Found (starts : List Nat) (offset : Nat) : Except Nat Nat → Prop
  | here {i} : starts[i]? = some offset → Found starts offset (.ok i)
  | gap {i} : i ≤ starts.length → (∀ s ∈ starts.take i, s < offset) →
    (∀ s ∈ starts.drop i, offset < s) → Found starts offset (.error i)

theorem exists_found {starts : List Nat} (hs : starts.Pairwise (· < ·)) (offset : Nat) :
    ∃ found, Found starts offset found := by
  induction hs
  case nil => exact ⟨_, .gap (Nat.zero_le 0) nofun nofun⟩
  case cons s starts hs _ hi =>
    rcases Nat.lt_trichotomy s offset with hl | rfl | hl
    case inl =>
      obtain ⟨_, hf | ⟨hi, hb, hl'⟩⟩ := hi
      case here hf => exact ⟨_, .here (i := _ + 1) hf⟩
      case gap i   =>
        exact ⟨_, .gap (i := i + 1) (Nat.succ_le_succ hi) (List.forall_mem_cons.mpr ⟨hl, hb⟩) hl'⟩
    case inr.inl => exact ⟨_, .here (i := 0) rfl⟩
    case inr.inr =>
      have hd : ∀ t ∈ s :: starts, offset < t :=
        List.forall_mem_cons.mpr ⟨hl, fun t ht => Nat.lt_trans hl (hs t ht)⟩
      exact ⟨_, .gap (i := 0) (Nat.zero_le _) nofun hd⟩

-- The line that a search leads to. There is none in front of the first place.
def lineOf? : Except Nat Nat → Option Nat
  | .ok i          => some i
  | .error 0       => none
  | .error (i + 1) => some i

-- The position that a search leads to, when it takes nothing from less and reads nothing outside of
-- the table.
def positionOf? (lines : Lines) (offset : Nat) (found : Except Nat Nat) : Option Position := do
  let line ← lineOf? found
  let start ← lines.starts[line]?
  if start ≤ offset then some ⟨.ofNat line + 1, .ofNat (offset - start)⟩ else none

-- Whatever the search, it leads to the last line that has begun.
theorem Found.lineOf?_eq {found : Except Nat Nat}
    (h : Found (ofSource source).starts offset found) :
    lineOf? found = some (feeds (bytesBefore source offset)) := by
  have hb {l₁ l₂ : List Nat} (he : (ofSource source).starts = l₁ ++ l₂) (h₁ : ∀ s ∈ l₁, s ≤ offset)
      (h₂ : ∀ s ∈ l₂, offset < s) : l₁.length = feeds (bytesBefore source offset) + 1 := by
    have hw : l₁ = 0 :: startsOf 0 (bytesBefore source offset) := by
      rw [← takeWhile_starts, he, takeWhile_append_eq_left (by simpa using h₁) (by simpa using h₂)]
    rw [hw, List.length_cons, length_startsOf]
  cases h
  case here i hi =>
    obtain ⟨hl, he⟩ := List.getElem?_eq_some_iff.mp hi
    have hs : (ofSource source).starts =
        (ofSource source).starts.take i ++ offset :: (ofSource source).starts.drop (i + 1) := by
      rw [← he, ← List.drop_eq_getElem_cons hl, List.take_append_drop]
    have ⟨_, hp, hf⟩ := List.pairwise_append.mp (hs ▸ pairwise_starts source)
    have hf : ∀ s ∈ (ofSource source).starts.take i ++ [offset], s ≤ offset := by
      refine List.forall_mem_append.mpr ⟨fun s hm => ?_, by simp⟩
      exact Nat.le_of_lt (hf s hm offset List.mem_cons_self)
    have hi := hb (List.append_cons .. ▸ hs) hf (List.pairwise_cons.mp hp).1
    rw [List.length_append, List.length_take, Nat.min_eq_left (Nat.le_of_lt hl)] at hi
    exact congrArg some (Nat.succ.inj hi)
  case gap i hi hf hd =>
    have hi' := hb (List.take_append_drop i _).symm (fun s hs => Nat.le_of_lt (hf s hs)) hd
    rw [List.length_take, Nat.min_eq_left hi] at hi'
    rw [hi']
    rfl

theorem Found.positionOf?_eq {found : Except Nat Nat}
    (h : Found (ofSource source).starts offset found) :
    (ofSource source).positionOf? offset found = some ((ofSource source).position offset) := by
  simp [positionOf?, h.lineOf?_eq, getElem?_starts, lineStart_le, position_eq]

/-! From positions back to offsets, and their order. -/

-- The offset of a position.
def offsetOf (lines : Lines) (p : Position) : Nat :=
  lines.starts[(p.line - 1).toNat]?.getD 0 + p.column.toNat

section

variable (hs : source.utf8ByteSize < UInt32.size) (ho : offset ≤ source.utf8ByteSize)

include hs ho

theorem feeds_lt : feeds (bytesBefore source offset) < UInt32.size := by
  have hf := feeds_le_length (bytesBefore source offset)
  rw [length_bytesBefore ho] at hf
  omega

theorem toNat_column :
    ((ofSource source).position offset).column.toNat =
      (lastLine (bytesBefore source offset)).length := by
  have hl := length_lastLine_le (bytesBefore source offset)
  rw [length_bytesBefore ho] at hl
  rw [position_eq, lineStart, length_bytesBefore ho, Nat.sub_sub_self hl]
  refine UInt32.toNat_ofNat_of_lt' ?_
  omega

theorem offsetOf_position :
    (ofSource source).offsetOf ((ofSource source).position offset) = offset := by
  have hl := length_lastLine_le (bytesBefore source offset)
  rw [offsetOf, toNat_column hs ho, position_eq, UInt32.add_sub_cancel,
    UInt32.toNat_ofNat_of_lt' (feeds_lt hs ho), getElem?_starts, Option.getD_some, lineStart,
    Nat.sub_add_cancel hl, length_bytesBefore ho]

-- Only if there is nothing but line feeds, as many as there can be, the line behind them has no
-- number.
def Unnumbered (source : String) (offset : Nat) : Prop :=
  source = .ofList (.replicate (UInt32.size - 1) '\n') ∧ offset = source.utf8ByteSize

theorem toNat_line :
    ((ofSource source).position offset).line.toNat = feeds (bytesBefore source offset) + 1 ∨
      Unnumbered source offset := by
  have hf := feeds_lt hs ho
  have hl := feeds_le_length (bytesBefore source offset)
  rw [length_bytesBefore ho] at hl
  by_cases hn : feeds (bytesBefore source offset) + 1 < UInt32.size
  case pos =>
    rw [position_eq, UInt32.toNat_add, UInt32.toNat_ofNat_of_lt' hf]
    exact .inl (Nat.mod_eq_of_lt hn)
  case neg =>
    have he : offset = source.utf8ByteSize := by omega
    have hb : bytesBefore source offset = bytes source := by
      rw [bytesBefore, he, ← length_bytes, List.take_length]
    have hc : feeds (bytes source) = (bytes source).length := by
      rw [← hb, length_bytesBefore ho]
      omega
    have hr := eq_ofList_replicate fun b hb => (List.count_eq_length.mp hc b hb).symm
    have hz : source.utf8ByteSize = UInt32.size - 1 := by omega
    exact .inr ⟨hz ▸ hr, he⟩

end

end Lines

-- The order of positions: lines first.
def Position.Before (p q : Position) : Prop :=
  p.line < q.line ∨ p.line = q.line ∧ p.column < q.column

namespace Lines

theorem before_of_lt {a b : Nat} (hs : source.utf8ByteSize < UInt32.size) (hab : a < b)
    (hb : b ≤ source.utf8ByteSize) :
    ((ofSource source).position a).Before ((ofSource source).position b) ∨ Unnumbered source b := by
  have ha : a ≤ source.utf8ByteSize := Nat.le_of_lt (Nat.lt_of_lt_of_le hab hb)
  have hm := bytesBefore_eq source (Nat.le_of_lt hab)
  let between := ((bytes source).drop a).take (b - a)
  have hf : feeds (bytesBefore source b) = feeds (bytesBefore source a) + feeds between :=
    hm ▸ feeds_append _ _
  by_cases hz : feeds between = 0
  case pos =>
    -- Both offsets are in one line.
    have hl : ((ofSource source).position a).line = ((ofSource source).position b).line := by
      rw [position_eq, position_eq, hf, hz, Nat.add_zero]
    have hc : (lastLine (bytesBefore source b)).length =
        (lastLine (bytesBefore source a)).length + between.length := by
      rw [hm, lastLine_append hz, List.length_append]
    have hn : between.length = b - a := by
      rw [List.length_take, List.length_drop, length_bytes]
      omega
    refine .inl (.inr ⟨hl, UInt32.lt_iff_toNat_lt.mpr ?_⟩)
    rw [toNat_column hs ha, toNat_column hs hb]
    omega
  case neg =>
    rcases toNat_line hs hb with hb' | hu
    case inr => exact .inr hu
    case inl =>
      rcases toNat_line hs ha with ha' | ⟨-, hu⟩
      case inr => omega
      case inl =>
        refine .inl (.inl (UInt32.lt_iff_toNat_lt.mpr ?_))
        omega

-- Offsets past the end are in the last line.
theorem line_past_end (h : source.utf8ByteSize ≤ offset) :
    ((ofSource source).position offset).line =
      ((ofSource source).position source.utf8ByteSize).line := by
  have hb : bytesBefore source offset = bytesBefore source source.utf8ByteSize := by
    have hl {n : Nat} (hn : source.utf8ByteSize ≤ n) : bytesBefore source n = bytes source :=
      List.take_of_length_le hn
    rw [hl h, hl (Nat.le_refl _)]
  rw [position_eq, position_eq, hb]

-- Two lines, the first with a character of two bytes, and an empty one behind them.
def accented : String := "é x\n\ty\n"

end Lines

end StandIn.Text
