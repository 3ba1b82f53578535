import Reckon.Proofs.Decimal.Literals
import Reckon.Proofs.Token.LongestWord

/-!
# Tokens as segments of the text

A scan takes the longest word at each point and skips what may stand between words. It either takes
the whole text or is stuck in front of a character that starts no word. The tokens of a text are the
words of its scan; what is refused is the character the scan is stuck at, or else the first literal
out of range.
-/

namespace Reckon.Token

/-- Characters scanned from the left, the first one standing at a byte position: the words taken, in
order, and what is left where no word can be taken. -/
inductive Scans : Nat → List Char → List Lexeme → List Char → Prop where
  | done {position : Nat} : Scans position [] [] []
  /-- The character neither stands between words nor starts one. -/
  | stuck {position : Nat} {c : Char} {cs : List Char} : isGap c = false →
      (∀ shape word, IsWord shape word → ¬word <+: c :: cs) →
      Scans position (c :: cs) [] (c :: cs)
  | gap {position : Nat} {c : Char} {cs rest : List Char} {words : List Lexeme} :
      isGap c = true → Scans (position + c.utf8Size) cs words rest →
      Scans position (c :: cs) words rest
  | word {position : Nat} {shape : Shape} {w cs rest : List Char} {words : List Lexeme} :
      IsLongestFront shape w cs →
      Scans (position + byteLength w) (cs.drop w.length) words rest →
      Scans position cs (⟨shape, w, position⟩ :: words) rest

/-! ## Bytes -/

/-- The bytes of some characters are those of the first one and of the others. -/
theorem byteLength_cons (c : Char) (cs : List Char) :
    byteLength (c :: cs) = c.utf8Size + byteLength cs :=
  rfl

/-- The bytes of two texts one after the other are added. -/
theorem byteLength_append (cs ds : List Char) :
    byteLength (cs ++ ds) = byteLength cs + byteLength ds := by
  induction cs with
  | nil => exact (Nat.zero_add _).symm
  | cons c cs ih => rw [List.cons_append, byteLength_cons, byteLength_cons, ih, Nat.add_assoc]

/-- A text that is not empty has bytes. -/
theorem byteLength_pos {cs : List Char} (h : cs ≠ []) : 0 < byteLength cs := by
  obtain ⟨c, tail, rfl⟩ := List.exists_cons_of_ne_nil h
  have := c.utf8Size_pos
  rw [byteLength_cons]
  omega

/-- The bytes of some characters are those of the text they make. -/
theorem byteLength_eq (cs : List Char) : byteLength cs = (String.ofList cs).utf8ByteSize := by
  induction cs with
  | nil => rfl
  | cons c cs ih =>
    rw [byteLength_cons, ih, String.ofList_cons, String.utf8ByteSize_append,
      String.utf8ByteSize_singleton]

/-! ## The scan of a text -/

/-- The longest word at the front is cut off and leaves the characters behind it. -/
theorem IsLongestFront.exists_append {shape : Shape} {w cs : List Char}
    (h : IsLongestFront shape w cs) : ∃ behind, cs = w ++ behind ∧ cs.drop w.length = behind := by
  obtain ⟨behind, rfl⟩ := h.isFront
  exact ⟨behind, rfl, List.drop_left⟩

/-- A word begins with a character that does not stand between words. -/
theorem IsLongestFront.exists_cons {shape : Shape} {w cs : List Char}
    (h : IsLongestFront shape w cs) : ∃ c behind, cs = c :: behind ∧ isGap c = false := by
  obtain ⟨behind, rfl, -⟩ := h.exists_append
  obtain ⟨c, tail, rfl⟩ := h.isWord.exists_cons
  exact ⟨c, tail ++ behind, List.cons_append, h.isWord.isGap_eq_false⟩

/-- Every text has a scan. -/
theorem exists_scans (position : Nat) (cs : List Char) :
    ∃ words rest, Scans position cs words rest := by
  fun_induction cut cs position with
  | case1 position => exact ⟨[], [], .done⟩
  | case2 position c behind gap ih =>
    obtain ⟨words, rest, scans⟩ := ih
    exact ⟨words, rest, .gap gap scans⟩
  | case3 position c behind noGap none =>
    exact ⟨[], c :: behind, .stuck (eq_false_of_ne_true noGap) (wordFront?_eq_none_iff.1 none)⟩
  | case4 position c behind noGap shape w front fault _ ih =>
    obtain ⟨words, rest, scans⟩ := ih
    exact ⟨_, rest, .word (wordFront?_eq_some_iff.1 front) scans⟩
  | case5 position c behind noGap shape w front others _ ih =>
    obtain ⟨words, rest, scans⟩ := ih
    exact ⟨_, rest, .word (wordFront?_eq_some_iff.1 front) scans⟩

/-- A text has one scan only. -/
theorem Scans.unique {position : Nat} {cs rest rest' : List Char} {words words' : List Lexeme}
    (h : Scans position cs words rest) (h' : Scans position cs words' rest') :
    words' = words ∧ rest' = rest := by
  induction h generalizing words' with
  | done =>
    cases h' with
    | done => exact ⟨rfl, rfl⟩
    | word front _ =>
      obtain ⟨_, _, same, -⟩ := front.exists_cons
      cases same
  | stuck noGap none =>
    cases h' with
    | stuck => exact ⟨rfl, rfl⟩
    | gap gap _ => rw [noGap] at gap; cases gap
    | word front _ => exact absurd front.isFront (none _ _ front.isWord)
  | gap gap _ ih =>
    cases h' with
    | stuck noGap _ => rw [gap] at noGap; cases noGap
    | gap _ behind => exact ih behind
    | word front _ =>
      obtain ⟨_, _, same, noGap⟩ := front.exists_cons
      cases same
      rw [gap] at noGap
      cases noGap
  | word front _ ih =>
    cases h' with
    | done =>
      obtain ⟨_, _, same, -⟩ := front.exists_cons
      cases same
    | stuck _ none => exact absurd front.isFront (none _ _ front.isWord)
    | gap gap _ =>
      obtain ⟨_, _, same, noGap⟩ := front.exists_cons
      cases same
      rw [gap] at noGap
      cases noGap
    | word front' behind =>
      obtain ⟨rfl, rfl⟩ := front.unique front'
      obtain ⟨rfl, rfl⟩ := ih behind
      exact ⟨rfl, rfl⟩

/-- Words are cut off as they are scanned, up to the character at which the scan is stuck. -/
theorem Scans.cut_eq {position : Nat} {cs rest : List Char} {words : List Lexeme}
    (h : Scans position cs words rest) :
    (rest = [] → cut cs position = .ok words) ∧
      ∀ c behind, rest = c :: behind → ∃ before, cs = before ++ rest ∧ isGap c = false ∧
        (∀ shape word, IsWord shape word → ¬word <+: rest) ∧
        cut cs position =
          .error (.unrecognized (String.singleton c) (position + byteLength before)) := by
  induction h with
  | done => exact ⟨fun _ => by rw [cut], fun _ _ same => by cases same⟩
  | @stuck position c cs noGap none =>
    refine ⟨fun ended => absurd ended (List.cons_ne_nil c cs), fun d behind same => ?_⟩
    cases same
    refine ⟨[], rfl, noGap, none, ?_⟩
    rw [cut, noGap, if_neg Bool.false_ne_true]
    split
    · rfl
    · next shape w front =>
      rw [wordFront?_eq_none_iff.2 none] at front
      cases front
  | @gap position c cs rest words gap _ ih =>
    rw [cut, if_pos gap]
    refine ⟨ih.1, fun d behind same => ?_⟩
    obtain ⟨before, split, noGap, none, stuck⟩ := ih.2 d behind same
    refine ⟨c :: before, by rw [split, List.cons_append], noGap, none, ?_⟩
    rw [stuck, byteLength_cons, Nat.add_assoc]
  | @word position shape w cs rest words front _ ih =>
    obtain ⟨c, behind, rfl, noGap⟩ := front.exists_cons
    have taken := wordFront?_eq_some_iff.2 front
    obtain ⟨dropped, whole, isDropped⟩ := front.exists_append
    rw [cut, noGap, if_neg Bool.false_ne_true]
    split
    · next none =>
      rw [taken] at none
      cases none
    · next shape' w' found =>
      rw [taken] at found
      cases found
      refine ⟨fun ended => by rw [ih.1 ended], fun d behind' same => ?_⟩
      obtain ⟨before, split, noGap', none, stuck⟩ := ih.2 d behind' same
      refine ⟨w ++ before, ?_, noGap', none, ?_⟩
      · rw [whole, List.append_assoc, ← split, isDropped]
      · rw [stuck, byteLength_append, Nat.add_assoc]

/-! ## Where the words stand -/

/-- The byte position after a word. -/
def Lexeme.stop (w : Lexeme) : Nat :=
  w.position + byteLength w.spelling

/-- Every word is spelled where it stands. -/
theorem Scans.exists_slice {position : Nat} {cs rest : List Char} {words : List Lexeme}
    (h : Scans position cs words rest) : ∀ w ∈ words, IsWord w.shape w.spelling ∧
      ∃ before behind, cs = before ++ w.spelling ++ behind ∧
        w.position = position + byteLength before := by
  induction h with
  | done => exact nofun
  | stuck => exact nofun
  | @gap position c cs rest words gap _ ih =>
    intro w mem
    obtain ⟨isWord, before, behind, rfl, same⟩ := ih w mem
    refine ⟨isWord, c :: before, behind, rfl, ?_⟩
    rw [same, byteLength_cons, Nat.add_assoc]
  | @word position shape w cs rest words front _ ih =>
    obtain ⟨dropped, whole, isDropped⟩ := front.exists_append
    intro u mem
    rcases List.mem_cons.1 mem with rfl | mem
    · exact ⟨front.isWord, [], dropped, whole, rfl⟩
    · obtain ⟨isWord, before, behind, split, same⟩ := ih u mem
      refine ⟨isWord, w ++ before, behind, ?_, ?_⟩
      · rw [whole, ← isDropped, split, List.append_assoc, List.append_assoc, List.append_assoc]
      · rw [same, byteLength_append, Nat.add_assoc]

/-- Words lie inside the characters they are scanned from. -/
theorem Scans.within {position : Nat} {cs rest : List Char} {words : List Lexeme}
    (h : Scans position cs words rest) {w : Lexeme} (mem : w ∈ words) :
    position ≤ w.position ∧ w.position < w.stop ∧ w.stop ≤ position + byteLength cs := by
  obtain ⟨isWord, before, behind, rfl, same⟩ := h.exists_slice w mem
  obtain ⟨c, tail, spelled⟩ := isWord.exists_cons
  have positive : 0 < byteLength w.spelling :=
    byteLength_pos (by rw [spelled]; exact List.cons_ne_nil c tail)
  rw [Lexeme.stop, byteLength_append, byteLength_append]
  omega

/-- Words stand one behind the other. -/
theorem Scans.pairwise {position : Nat} {cs rest : List Char} {words : List Lexeme}
    (h : Scans position cs words rest) : words.Pairwise fun w u => w.stop ≤ u.position := by
  induction h with
  | done => exact .nil
  | stuck => exact .nil
  | gap _ _ ih => exact ih
  | word _ behind ih => exact .cons (fun u mem => (behind.within mem).1) ih

/-- A character in front of what is left stands between words or belongs to one of them. -/
theorem Scans.covers {position : Nat} {cs rest : List Char} {words : List Lexeme}
    (h : Scans position cs words rest) : rest = [] → ∀ before c behind, cs = before ++ c :: behind →
      isGap c = true ∨
        ∃ w ∈ words, w.position ≤ position + byteLength before ∧
          position + byteLength before < w.stop := by
  induction h with
  | done =>
    intro _ before c behind same
    cases before <;> cases same
  | stuck => exact nofun
  | @gap position c cs rest words gap _ ih =>
    intro ended before d behind same
    cases before with
    | nil =>
      cases same
      exact .inl gap
    | cons b before =>
      obtain ⟨rfl, split⟩ := List.cons.inj same
      rw [byteLength_cons, ← Nat.add_assoc]
      exact ih ended before d behind split
  | @word position shape w cs rest words front _ ih =>
    intro ended before c behind same
    obtain ⟨dropped, whole, isDropped⟩ := front.exists_append
    rw [whole] at same
    -- The character lies behind the word or in it.
    rcases List.append_eq_append_iff.1 same with ⟨between, rfl, split⟩ | ⟨tail, spelled, split⟩
    · rcases ih ended between c behind (isDropped.trans split) with gap | ⟨u, mem, low, high⟩
      · exact .inl gap
      · refine .inr ⟨u, List.mem_cons_of_mem _ mem, ?_, ?_⟩ <;>
          rw [byteLength_append, ← Nat.add_assoc]
        · exact low
        · exact high
    · cases tail with
      | nil =>
        rw [List.append_nil] at spelled
        rw [List.nil_append] at split
        rcases ih ended [] c behind (isDropped.trans split.symm) with gap | ⟨u, mem, low, high⟩
        · exact .inl gap
        · rw [← spelled]
          exact .inr ⟨u, List.mem_cons_of_mem _ mem, low, high⟩
      | cons d tail =>
        have positive : 0 < byteLength (d :: tail) := byteLength_pos (List.cons_ne_nil d tail)
        have stop : Lexeme.stop ⟨shape, w, position⟩ = position + byteLength w := rfl
        refine .inr ⟨_, List.mem_cons_self, Nat.le_add_right _ _, ?_⟩
        rw [stop, spelled, byteLength_append]
        omega

/-! ## Reading the words -/

/-- The number of the word is in range, if the word is a number. -/
def Lexeme.Fits (w : Lexeme) : Prop :=
  w.shape = .number → InRange w.spelling

/-- The token is read from the word: it is of the word's kind, spelled like the word, and stands
where the word stands. -/
structure Lexeme.IsRead (w : Lexeme) (t : Token) : Prop where
  kind : w.kind = .ok t.kind
  lexeme : t.lexeme = String.ofList w.spelling
  position : t.position = w.position

/-- Behind the point of a number word there are only digits. -/
theorem IsWord.isDigit_of_mem_placesOf {spelling : List Char} (h : IsWord .number spelling) :
    ∀ c ∈ placesOf spelling, c.isDigit = true := by
  cases h with
  | whole _ digits =>
    have none : spelling.dropWhile Char.isDigit = [] := List.dropWhile_eq_nil_iff.2 digits
    rw [placesOf, none, List.drop_nil]
    exact List.forall_mem_nil _
  | @fraction digits places _ isDigits isPlaces =>
    have ended : ∀ c, ('.' :: places).head? = some c → c.isDigit = false := by
      intro c first
      obtain rfl : '.' = c := Option.some.inj first
      rfl
    rw [placesOf, dropWhile_append_eq isDigits ended, List.drop_one, List.tail_cons]
    exact isPlaces

/-- A word that is no number has nothing to fit. -/
theorem fits_of_ne {w : Lexeme} (other : w.shape ≠ .number) : w.Fits :=
  fun isNumber => absurd isNumber other

/-- A word is read if its number is in range, and else refused where it stands. -/
theorem kind_cases {w : Lexeme} (isWord : IsWord w.shape w.spelling) :
    (w.Fits ∧ ∃ k, w.kind = .ok k) ∨
      (¬w.Fits ∧ w.kind = .error (.unrecognized (String.ofList w.spelling) w.position)) := by
  obtain ⟨shape, spelling, position⟩ := w
  cases shape with
  | number =>
    have refused := readNumber?_eq_none_iff isWord.isDigit_of_mem_placesOf
    cases read : readNumber? spelling with
    | none =>
      refine .inr ⟨fun fits => refused.1 read (fits rfl), ?_⟩
      rw [Lexeme.kind, read]
    | some value =>
      refine .inl ⟨fun _ => Classical.byContradiction fun outside => ?_, .number value, ?_⟩
      · rw [refused.2 outside] at read
        cases read
      · rw [Lexeme.kind, read]
  | name => exact .inl ⟨fits_of_ne (by simp), _, rfl⟩
  | operator op => exact .inl ⟨fits_of_ne (by simp), _, rfl⟩
  | leftParen => exact .inl ⟨fits_of_ne (by simp), _, rfl⟩
  | rightParen => exact .inl ⟨fits_of_ne (by simp), _, rfl⟩
  | comma => exact .inl ⟨fits_of_ne (by simp), _, rfl⟩
  | leftBracket => exact .inl ⟨fits_of_ne (by simp), _, rfl⟩
  | rightBracket => exact .inl ⟨fits_of_ne (by simp), _, rfl⟩

/-- Words in range are read one by one. -/
theorem exists_ofLexemes {words : List Lexeme} (isWord : ∀ w ∈ words, IsWord w.shape w.spelling)
    (fits : ∀ w ∈ words, w.Fits) :
    ∃ tokens, ofLexemes words = .ok tokens ∧ List.Forall₂ Lexeme.IsRead words tokens := by
  induction words with
  | nil => exact ⟨[], rfl, .nil⟩
  | cons w words ih =>
    obtain ⟨tokens, read, all⟩ := ih (fun u mem => isWord u (List.mem_cons_of_mem w mem))
      fun u mem => fits u (List.mem_cons_of_mem w mem)
    rcases kind_cases (isWord w List.mem_cons_self) with ⟨-, k, isKind⟩ | ⟨outside, -⟩
    · exact ⟨⟨k, String.ofList w.spelling, w.position⟩ :: tokens,
        ofLexemes_cons_eq_ok.2 ⟨k, tokens, isKind, read, rfl⟩, .cons ⟨isKind, rfl, rfl⟩ all⟩
    · exact absurd (fits w List.mem_cons_self) outside

/-- The first word out of range is refused. -/
theorem ofLexemes_append_eq_error {front back : List Lexeme} {w : Lexeme}
    (isWord : ∀ u ∈ front ++ w :: back, IsWord u.shape u.spelling) (fits : ∀ u ∈ front, u.Fits)
    (outside : ¬w.Fits) : ofLexemes (front ++ w :: back) =
      .error (.unrecognized (String.ofList w.spelling) w.position) := by
  induction front with
  | nil =>
    rcases kind_cases (isWord w List.mem_cons_self) with ⟨inside, -⟩ | ⟨-, refused⟩
    · exact absurd inside outside
    · rw [List.nil_append, ofLexemes, refused]
  | cons u front ih =>
    have refused := ih (fun v mem => isWord v (List.mem_cons_of_mem u mem))
      fun v mem => fits v (List.mem_cons_of_mem u mem)
    rcases kind_cases (isWord u List.mem_cons_self) with ⟨-, k, isKind⟩ | ⟨outside', -⟩
    · simp only [List.cons_append, ofLexemes, isKind, refused]
    · exact absurd (fits u List.mem_cons_self) outside'

/-! ## The tokens of a text -/

/-- How tokens account for a text: each is spelled at its byte position, they stand one behind the
other at increasing positions, every character outside them may stand between words, and numbers are
those that are spelled, up to half a unit of their last place. -/
structure Segments (text : String) (tokens : List Token) : Prop where
  slices : ∀ t ∈ tokens, ∃ before behind, text = before ++ t.lexeme ++ behind ∧
    t.position = before.utf8ByteSize
  ordered : tokens.Pairwise fun t u => t.position < u.position ∧ t.stop ≤ u.position
  gaps : ∀ before c behind, text.toList = before ++ c :: behind →
    isGap c = true ∨ ∃ t ∈ tokens, t.position ≤ byteLength before ∧ byteLength before < t.stop
  numbers : ∀ t ∈ tokens, ∀ d, t.kind = .number d →
    |d.toRat - literalValue t.lexeme.toList| ≤ 1 / (2 * 10 ^ d.scale)

section Read

variable {words : List Lexeme} {tokens : List Token} (all : List.Forall₂ Lexeme.IsRead words tokens)

/-- A token ends where its word does. -/
theorem Lexeme.IsRead.stop_eq {w : Lexeme} {t : Token} (h : w.IsRead t) : t.stop = w.stop := by
  rw [Token.stop, Lexeme.stop, h.lexeme, h.position, byteLength_eq]

include all

/-- Every token is read from a word. -/
theorem exists_word_of_isRead {t : Token} (mem : t ∈ tokens) : ∃ w ∈ words, w.IsRead t := by
  obtain ⟨i, rfl⟩ := List.mem_iff_get.1 mem
  have lt : i < words.length := Nat.lt_of_lt_of_eq i.2 all.length_eq.symm
  exact ⟨words.get ⟨i, lt⟩, List.get_mem words ⟨i, lt⟩, all.get lt i.2⟩

/-- Every word is read as a token. -/
theorem exists_token_of_isRead {w : Lexeme} (mem : w ∈ words) : ∃ t ∈ tokens, w.IsRead t := by
  obtain ⟨i, rfl⟩ := List.mem_iff_get.1 mem
  have lt : i < tokens.length := Nat.lt_of_lt_of_eq i.2 all.length_eq
  exact ⟨tokens.get ⟨i, lt⟩, List.get_mem tokens ⟨i, lt⟩, all.get i.2 lt⟩

/-- Tokens stand one behind the other if their words do. -/
theorem pairwise_of_isRead (nonempty : ∀ w ∈ words, w.position < w.stop)
    (ordered : words.Pairwise fun w u => w.stop ≤ u.position) :
    tokens.Pairwise fun t u => t.position < u.position ∧ t.stop ≤ u.position := by
  rw [List.pairwise_iff_get] at ordered ⊢
  intro i j lt
  have lti : i < words.length := Nat.lt_of_lt_of_eq i.2 all.length_eq.symm
  have ltj : j < words.length := Nat.lt_of_lt_of_eq j.2 all.length_eq.symm
  have first := all.get lti i.2
  have second := all.get ltj j.2
  have apart := ordered ⟨i, lti⟩ ⟨j, ltj⟩ lt
  have long := nonempty _ (List.get_mem words ⟨i, lti⟩)
  rw [first.stop_eq, first.position, second.position]
  exact ⟨Nat.lt_of_lt_of_le long apart, apart⟩

/-- Tokens that are read from all words of a text account for the text. -/
theorem segments_of_scans {text : String} (scans : Scans 0 text.toList words []) :
    Segments text (tokens ++ [finishAt text.utf8ByteSize]) := by
  have bytes : byteLength text.toList = text.utf8ByteSize := by
    rw [byteLength_eq, String.ofList_toList]
  refine ⟨fun t mem => ?_, ?_, fun before c behind split => ?_, fun t mem d number => ?_⟩
  · rcases List.mem_append.1 mem with front | last
    · obtain ⟨w, inside, read⟩ := exists_word_of_isRead all front
      obtain ⟨-, before, behind, split, same⟩ := scans.exists_slice w inside
      refine ⟨String.ofList before, String.ofList behind, ?_, ?_⟩
      · rw [read.lexeme, ← String.ofList_append, ← String.ofList_append, ← split,
          String.ofList_toList]
      · rw [read.position, same, byteLength_eq, Nat.zero_add]
    · obtain rfl := List.mem_singleton.1 last
      exact ⟨text, "", by rw [finishAt, String.append_empty, String.append_empty], rfl⟩
  · refine List.pairwise_append.2 ⟨?_, List.pairwise_singleton _ _, fun t front u last => ?_⟩
    · exact pairwise_of_isRead all (fun w mem => (scans.within mem).2.1) scans.pairwise
    · obtain rfl := List.mem_singleton.1 last
      obtain ⟨w, inside, read⟩ := exists_word_of_isRead all front
      obtain ⟨-, long, within⟩ := scans.within inside
      rw [Nat.zero_add, bytes] at within
      rw [read.stop_eq, read.position]
      exact ⟨Nat.lt_of_lt_of_le long within, within⟩
  · rcases scans.covers rfl before c behind split with gap | ⟨w, inside, low, high⟩
    · exact .inl gap
    · obtain ⟨t, mem, read⟩ := exists_token_of_isRead all inside
      rw [Nat.zero_add] at low high
      rw [← read.position] at low
      rw [← read.stop_eq] at high
      exact .inr ⟨t, List.mem_append_left _ mem, low, high⟩
  · rcases List.mem_append.1 mem with front | last
    · obtain ⟨w, inside, read⟩ := exists_word_of_isRead all front
      obtain ⟨isWord, -⟩ := scans.exists_slice w inside
      have isKind := read.kind
      rw [number] at isKind
      unfold Lexeme.kind at isKind
      split at isKind
      · next shape =>
        rw [shape] at isWord
        split at isKind
        · next value found =>
          cases isKind
          rw [read.lexeme, String.toList_ofList]
          exact abs_sub_literalValue_le isWord.isDigit_of_mem_placesOf found
        · cases isKind
      all_goals cases isKind
    · obtain rfl := List.mem_singleton.1 last
      cases number

end Read

/-- Every text has exactly one scan, and the scan decides what becomes of the text. If it takes all
of the text and every literal is in range, the tokens are the words it took, each at its place in
the text, with one end token at the end of the text. If it is stuck, the character at which it is
stuck is refused, whether or not the literals in front are in range. Else the first literal out of
range is refused. -/
theorem tokenize_segments (text : String) : ∃ words rest, Scans 0 text.toList words rest ∧
    (∀ words' rest', Scans 0 text.toList words' rest' → words' = words ∧ rest' = rest) ∧
    (rest = [] → (∀ w ∈ words, w.Fits) → ∃ tokens,
      tokenize text = .ok (tokens ++ [finishAt text.utf8ByteSize]) ∧
        List.Forall₂ Lexeme.IsRead words tokens ∧ (∀ t ∈ tokens, t.kind ≠ .finish) ∧
          Segments text (tokens ++ [finishAt text.utf8ByteSize])) ∧
    (∀ c behind, rest = c :: behind → ∃ before, text = String.ofList (before ++ c :: behind) ∧
      isGap c = false ∧ (∀ shape word, IsWord shape word → ¬word <+: c :: behind) ∧
        tokenize text =
          .error (.unrecognized (String.singleton c) (String.ofList before).utf8ByteSize)) ∧
    (rest = [] → ∀ front w back, words = front ++ w :: back → (∀ u ∈ front, u.Fits) → ¬w.Fits →
      tokenize text = .error (.unrecognized (String.ofList w.spelling) w.position)) := by
  obtain ⟨words, rest, scans⟩ := exists_scans 0 text.toList
  have isWord : ∀ w ∈ words, IsWord w.shape w.spelling :=
    fun w mem => (scans.exists_slice w mem).1
  obtain ⟨whole, stuck⟩ := scans.cut_eq
  refine ⟨words, rest, scans, fun _ _ => scans.unique, fun ended fits => ?_,
    fun c behind same => ?_, fun ended front w back split fits outside => ?_⟩
  · obtain ⟨tokens, read, all⟩ := exists_ofLexemes isWord fits
    subst ended
    refine ⟨tokens, ?_, all, kind_ne_finish_of_ofLexemes read, segments_of_scans all scans⟩
    rw [tokenize, whole rfl]
    simp only [read, byteLength_eq, String.ofList_toList]
  · obtain ⟨before, split, noGap, none, isCut⟩ := stuck c behind same
    subst same
    refine ⟨before, by rw [← split, String.ofList_toList], noGap, none, ?_⟩
    rw [tokenize, isCut, Nat.zero_add, byteLength_eq]
  · subst split
    rw [tokenize, whole ended]
    simp only [ofLexemes_append_eq_error isWord fits outside]

end Reckon.Token
