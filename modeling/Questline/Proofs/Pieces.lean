import Mathlib.Data.List.Infix
import Questline.Script.Template

/-!
# Texts in pieces

A text can be cut into pieces: tokens, and the characters between them.  Two tokens of a text never
share a character.  For, of the braces of a token the first two open and the last two close, and there
are none between; so an end of it that is a part only does not begin with two opening braces, and a
beginning that is a part only does not end with two closing ones.

Therefore the tokens of a name can be replaced on each side of a token by itself
(`replaceToken_append`), and on pieces that is done by putting the value in the place of each piece
that is a token of the name (`replaceToken_spell`).  It needs only that the characters between the
tokens do not spell another token of the name.

* `Piece`, `spell`: pieces, and the text they spell.
* `Piece.put`: a value in the place of a token.
* `piecesFrom`: a text in pieces, of which the tokens are those that are found from the left.
-/

namespace Questline

namespace Template

/-! ## Tokens -/

/-- There are no braces. -/
def Plain (cs : List Char) : Prop := ∀ c ∈ cs, isBrace c = false

instance (cs : List Char) : Decidable (Plain cs) :=
  List.decidableBAll (isBrace · = false) cs

/-- A text with each token of a name replaced by a value. -/
def replaceToken (name value cs : List Char) : List Char := replaceFrom (token name) value 0 cs

variable {name value cs xs ys : List Char} {c : Char}

theorem Plain.not_mem_open (h : Plain name) : '\x7b' ∉ name := by
  intro mem
  cases h _ mem

theorem Plain.not_mem_close (h : Plain name) : '\x7d' ∉ name := by
  intro mem
  cases h _ mem

theorem token_eq (name : List Char) : token name = '\x7b' :: '\x7b' :: (name ++ closing) := rfl

@[simp] theorem length_token (name : List Char) : (token name).length = name.length + 4 := by
  simp [token_eq, closing]

theorem token_ne_nil (name : List Char) : token name ≠ [] := List.cons_ne_nil _ _

theorem token_injective : Function.Injective token := by
  intro a b h
  simpa [token_eq] using h

theorem count_open_token (h : Plain name) : (token name).count '\x7b' = 2 := by
  simp [token_eq, closing, List.count_eq_zero_of_not_mem h.not_mem_open]

theorem count_close_token (h : Plain name) : (token name).count '\x7d' = 2 := by
  simp [token_eq, closing, List.count_eq_zero_of_not_mem h.not_mem_close]

theorem getLast_token (name : List Char) : (token name).getLast? = some '\x7d' := by
  rw [token, List.getLast?_append]
  rfl

/-- An end of a token that is a part of it does not begin with two opening braces. -/
theorem not_opened (plain : Plain name) (hx : xs ≠ []) (hy : ys ≠ []) {rest : List Char}
    (h : ys <+: '\x7b' :: '\x7b' :: rest) : xs ++ ys ≠ token name := by
  intro same
  have last := getLast_token name
  rw [← same, List.getLast?_append_of_ne_nil xs hy] at last
  obtain ⟨x, xs, rfl⟩ := List.exists_cons_of_ne_nil hx
  obtain ⟨rfl, -⟩ := List.cons.inj same
  have count := count_open_token plain
  rw [← same] at count
  match ys, h with
  | [y], h =>
    obtain ⟨rfl, -⟩ := List.cons_prefix_cons.1 h
    cases last
  | y :: z :: ys, h =>
    obtain ⟨first, later⟩ := List.cons_prefix_cons.1 h
    obtain ⟨second, -⟩ := List.cons_prefix_cons.1 later
    simp [first, second] at count
    omega

/-- A beginning of a token that is a part of it does not end with two closing braces. -/
theorem not_closed (plain : Plain name) (hx : xs ≠ []) (hy : ys ≠ []) {front : List Char}
    (h : xs <:+ front ++ closing) : xs ++ ys ≠ token name := by
  intro same
  have last := getLast_token name
  rw [← same, List.getLast?_append_of_ne_nil xs hy] at last
  have count := count_close_token plain
  rw [← same, List.count_append] at count
  have mem : 0 < ys.count '\x7d' := List.count_pos_iff.2 (List.mem_of_getLast? last)
  rcases List.suffix_or_suffix_of_suffix h (List.suffix_append front closing) with short | long
  · match xs, short with
    | [x], short =>
      obtain ⟨rfl, -⟩ := List.cons.inj same
      exact absurd (short.subset List.mem_cons_self) (by decide)
    | x :: y :: xs, short =>
      have whole : x :: y :: xs = closing := short.eq_of_length_le (by simp [closing])
      rw [whole] at count
      simp [closing] at count
      omega
  · obtain ⟨before, rfl⟩ := long
    simp [closing] at count
    omega

/-! ## Replacing -/

theorem replaceFrom_skip (old new : List Char) (skip : Nat) (cs : List Char) :
    replaceFrom old new skip cs = replaceFrom old new 0 (cs.drop skip) := by
  induction skip generalizing cs with
  | zero => rfl
  | succ skip ih =>
    cases cs with
    | nil => rfl
    | cons c cs => exact ih cs

@[simp] theorem replaceToken_nil : replaceToken name value [] = [] := rfl

@[simp] theorem replaceToken_token :
    replaceToken name value (token name ++ cs) = value ++ replaceToken name value cs := by
  have rest : List.drop ((token name).length - 1) ('\x7b' :: (name ++ closing) ++ cs) = cs := by
    simp [closing]
  rw [replaceToken, token_eq, List.cons_append, replaceFrom, if_pos (by simp), replaceFrom_skip]
  rw [token_eq] at rest
  rw [List.cons_append] at rest ⊢
  rw [rest, replaceToken, token_eq]

theorem replaceToken_char (h : ¬token name <+: c :: cs) :
    replaceToken name value (c :: cs) = c :: replaceToken name value cs := by
  rw [replaceToken, replaceFrom, if_neg (by simpa using h), replaceToken]

/-- Going through a text, over the tokens of a name and over the characters between them. -/
theorem induction_on_token (name : List Char) {P : List Char → Prop} (nil : P [])
    (token : ∀ cs, P cs → P (token name ++ cs))
    (char : ∀ c cs, ¬Template.token name <+: c :: cs → P cs → P (c :: cs)) (cs : List Char) : P cs := by
  induction h : cs.length using Nat.strongRecOn generalizing cs with
  | ind n ih =>
    subst h
    cases cs with
    | nil => exact nil
    | cons c cs =>
      by_cases head : Template.token name <+: c :: cs
      · obtain ⟨rest, hrest⟩ := head
        rw [← hrest] at ih ⊢
        exact token rest (ih rest.length (by simp) rest rfl)
      · exact char c cs head (ih cs.length (by simp) cs rfl)

theorem replaceToken_of_absent (h : ¬token name <:+: cs) : replaceToken name value cs = cs := by
  induction cs with
  | nil => rfl
  | cons c cs ih =>
    rw [replaceToken_char fun head => h head.isInfix, ih fun inside => h (List.infix_cons inside)]

/-- No token of the name reaches from the one text into the other. -/
def Apart (name a b : List Char) : Prop :=
  ∀ xs ys, xs ≠ [] → ys ≠ [] → xs <:+ a → ys <+: b → xs ++ ys ≠ token name

theorem apart_opening (plain : Plain name) (a b : List Char) : Apart name a (opening ++ b) :=
  fun _ _ hx hy _ hb => not_opened plain hx hy hb

theorem apart_closing (plain : Plain name) (a b : List Char) : Apart name (a ++ closing) b :=
  fun _ _ hx hy ha _ => not_closed plain hx hy ha

theorem Apart.of_suffix {a a' b : List Char} (h : Apart name a b) (suffix : a' <:+ a) :
    Apart name a' b :=
  fun xs ys hx hy ha => h xs ys hx hy (ha.trans suffix)

/-- A token that begins in the one text ends there. -/
theorem Apart.ends {a b : List Char} (apart : Apart name a b) (nonempty : a ≠ [])
    (h : token name <+: a ++ b) : token name <+: a := by
  rcases List.prefix_or_prefix_of_prefix h (List.prefix_append _ _) with short | ⟨ys, hys⟩
  · exact short
  · by_cases hy : ys = []
    · rw [hy, List.append_nil] at hys
      rw [hys]
    · have rest : ys <+: b := by
        rw [← hys] at h
        exact (List.prefix_append_right_inj _).1 h
      exact absurd hys (apart a ys nonempty hy (List.suffix_refl _) rest)

/-- **Where no token lies across, each side is done by itself.** -/
theorem replaceToken_append {a b : List Char} (apart : Apart name a b) :
    replaceToken name value (a ++ b) = replaceToken name value a ++ replaceToken name value b := by
  induction a using induction_on_token name with
  | nil => rfl
  | token a ih =>
    have ih := ih (apart.of_suffix (List.suffix_append _ _))
    rw [List.append_assoc, replaceToken_token, replaceToken_token, ih, List.append_assoc]
  | char c a head ih =>
    have ih := ih (apart.of_suffix (List.suffix_cons c a))
    have across : ¬token name <+: c :: a ++ b := fun h => head (apart.ends (List.cons_ne_nil c a) h)
    rw [replaceToken_char head, List.cons_append, List.cons_append, ← ih]
    exact replaceToken_char across

/-! ## Pieces -/

/-- A piece of a text. -/
inductive Piece where
  | char (c : Char)
  | token (name : List Char)

namespace Piece

/-- The text of a piece. -/
def text : Piece → List Char
  | .char c => [c]
  | .token name => Template.token name

/-- A piece after each token of a name has got the value in its place. -/
def put (name value : List Char) : Piece → List Piece
  | .char c => [.char c]
  | .token other => if other = name then value.map .char else [.token other]

end Piece

/-- The text that pieces spell. -/
def spell (ps : List Piece) : List Char := ps.flatMap Piece.text

/-- The tokens among the pieces have names without braces. -/
def Sound (ps : List Piece) : Prop := ∀ name, .token name ∈ ps → Plain name

/-- Characters among the pieces spell a token of the name. -/
def Spelled (name : List Char) (ps : List Piece) : Prop := (token name).map .char <:+: ps

variable {p : Piece} {ps qs : List Piece}

@[simp] theorem spell_nil : spell [] = [] := rfl

@[simp] theorem spell_char : spell (.char c :: ps) = c :: spell ps := rfl

@[simp] theorem spell_token : spell (.token name :: ps) = token name ++ spell ps := rfl

@[simp] theorem spell_append : spell (ps ++ qs) = spell ps ++ spell qs := by
  simp [spell]

@[simp] theorem spell_chars (cs : List Char) : spell (cs.map .char) = cs := by
  induction cs with
  | nil => rfl
  | cons c cs ih => rw [List.map_cons, spell_char, ih]

theorem Sound.tail (h : Sound (p :: ps)) : Sound ps :=
  fun name mem => h name (List.mem_cons_of_mem p mem)

theorem Spelled.cons (h : Spelled name ps) : Spelled name (p :: ps) := List.infix_cons h

/-- Where the text of some pieces begins with an end of a token that is a part of it, that is spelled by
characters. -/
theorem chars_of_end (plain : Plain name) (hx : xs ≠ []) (same : xs ++ ys = token name)
    (h : ys <+: spell ps) : ys.map .char <+: ps := by
  induction ps generalizing xs ys with
  | nil =>
    obtain rfl := List.prefix_nil.1 h
    exact List.nil_prefix
  | cons p ps ih =>
    cases ys with
    | nil => exact List.nil_prefix
    | cons y ys =>
      cases p with
      | char c =>
        obtain ⟨first, later⟩ := List.cons_prefix_cons.1 h
        have cut : (xs ++ [y]) ++ ys = token name := by simpa using same
        have rest := ih (by simp) cut later
        exact List.cons_prefix_cons.2 ⟨congrArg Piece.char first, rest⟩
      | token other => exact absurd same (not_opened plain hx (List.cons_ne_nil y ys) h)

/-- A token at a character is spelled by characters. -/
theorem spelled_of_head (plain : Plain name) (h : token name <+: spell (.char c :: ps)) :
    Spelled name (.char c :: ps) := by
  obtain ⟨first, h⟩ := List.cons_prefix_cons.1 h
  have cut : ['\x7b'] ++ '\x7b' :: (name ++ closing) = token name := rfl
  have rest := chars_of_end plain (List.cons_ne_nil _ _) cut h
  exact (List.cons_prefix_cons.2 ⟨congrArg Piece.char first, rest⟩ : _ <+: _).isInfix

/-- There is no token in a token but itself. -/
theorem eq_of_within_token {other : List Char} (plain : Plain name) (sound : Plain other)
    (h : token name <:+: token other) : name = other := by
  obtain ⟨before, after, same⟩ := h
  have opens := congrArg (List.count '\x7b') same
  have closes := congrArg (List.count '\x7d') same
  simp only [List.count_append, count_open_token, count_close_token, plain, sound] at opens closes
  have first : before = [] := by
    cases before with
    | nil => rfl
    | cons c before =>
      obtain ⟨rfl, -⟩ := List.cons.inj same
      simp at opens
      omega
  have last : after = [] := by
    by_contra nonempty
    have close := getLast_token other
    rw [← same, List.getLast?_append_of_ne_nil _ nonempty] at close
    have mem : 0 < after.count '\x7d' := List.count_pos_iff.2 (List.mem_of_getLast? close)
    omega
  rw [first, last, List.nil_append, List.append_nil] at same
  exact token_injective same

theorem replaceToken_other {other : List Char} (plain : Plain name) (sound : Plain other)
    (h : other ≠ name) : replaceToken name value (token other) = token other :=
  replaceToken_of_absent fun inside => h (eq_of_within_token plain sound inside).symm

/-- **The tokens of a name are replaced piece by piece.** -/
theorem replaceToken_spell (plain : Plain name) (sound : Sound ps) (free : ¬Spelled name ps) :
    replaceToken name value (spell ps) = spell (ps.flatMap (Piece.put name value)) := by
  induction ps with
  | nil => rfl
  | cons p ps ih =>
    have ih := ih sound.tail fun spelled => free spelled.cons
    rw [List.flatMap_cons, spell_append, ← ih]
    cases p with
    | char c =>
      exact replaceToken_char fun head => free (spelled_of_head plain head)
    | token other =>
      have apart : Apart name (token other) (spell ps) := apart_closing plain (opening ++ other) _
      rw [spell_token, replaceToken_append apart, Piece.put]
      split
      case isTrue same =>
        have whole : replaceToken name value (token name ++ []) = value ++ replaceToken name value [] :=
          replaceToken_token
        rw [List.append_nil, replaceToken_nil, List.append_nil] at whole
        rw [same, whole, spell_chars]
      case isFalse h =>
        rw [replaceToken_other plain (sound other List.mem_cons_self) h, spell_token, spell_nil,
          List.append_nil]

/-! ## Cutting a text into pieces -/

/-- A text in pieces: the tokens of the names that `head?` finds, and the characters between them.  The
first `skip` characters are part of a token that was found before. -/
def piecesFrom (head? : List Char → Option (List Char)) : (skip : Nat) → List Char → List Piece
  | _, [] => []
  | skip + 1, _ :: cs => piecesFrom head? skip cs
  | 0, c :: cs =>
    match head? (c :: cs) with
    | some name => .token name :: piecesFrom head? (name.length + 3) cs
    | none => .char c :: piecesFrom head? 0 cs

variable {head? : List Char → Option (List Char)}

theorem piecesFrom_skip (skip : Nat) (cs : List Char) :
    piecesFrom head? skip cs = piecesFrom head? 0 (cs.drop skip) := by
  induction skip generalizing cs with
  | zero => rfl
  | succ skip ih =>
    cases cs with
    | nil => rfl
    | cons c cs => exact ih cs

theorem piecesFrom_token (h : head? (token name ++ cs) = some name) :
    piecesFrom head? 0 (token name ++ cs) = .token name :: piecesFrom head? 0 cs := by
  have rest : List.drop (name.length + 3) ('\x7b' :: (name ++ closing) ++ cs) = cs := by
    simp [closing]
  rw [token_eq, List.cons_append] at h ⊢
  rw [piecesFrom, h]
  simp only
  rw [piecesFrom_skip, rest]

theorem piecesFrom_char (h : head? (c :: cs) = none) :
    piecesFrom head? 0 (c :: cs) = .char c :: piecesFrom head? 0 cs := by
  rw [piecesFrom, h]

/-- What is found is a token that the text begins with. -/
def Finds (head? : List Char → Option (List Char)) : Prop :=
  ∀ cs name, head? cs = some name → token name <+: cs ∧ Plain name

/-- Going through a text, over the tokens that are found and over the characters between them. -/
theorem Finds.induction (finds : Finds head?) {P : List Char → Prop} (nil : P [])
    (token : ∀ name cs, head? (token name ++ cs) = some name → P cs → P (token name ++ cs))
    (char : ∀ c cs, head? (c :: cs) = none → P cs → P (c :: cs)) (cs : List Char) : P cs := by
  induction h : cs.length using Nat.strongRecOn generalizing cs with
  | ind n ih =>
    subst h
    cases cs with
    | nil => exact nil
    | cons c cs =>
      cases head : head? (c :: cs) with
      | none => exact char c cs head (ih cs.length (by simp) cs rfl)
      | some name =>
        obtain ⟨⟨rest, hrest⟩, -⟩ := finds _ _ head
        rw [← hrest] at ih head ⊢
        exact token name rest head (ih rest.length (by simp) rest rfl)

/-- **The pieces of a text spell it.** -/
theorem spell_piecesFrom (finds : Finds head?) (cs : List Char) : spell (piecesFrom head? 0 cs) = cs := by
  induction cs using finds.induction with
  | nil => rfl
  | token name cs head ih => rw [piecesFrom_token head, spell_token, ih]
  | char c cs head ih => rw [piecesFrom_char head, spell_char, ih]

/-- Each token among the pieces has been found where it is. -/
theorem found_of_mem_piecesFrom (finds : Finds head?) (h : .token name ∈ piecesFrom head? 0 cs) :
    ∃ rest, head? (token name ++ rest) = some name := by
  induction cs using finds.induction with
  | nil => cases h
  | token other cs head ih =>
    rw [piecesFrom_token head] at h
    rcases List.mem_cons.1 h with same | h
    · cases same
      exact ⟨cs, head⟩
    · exact ih h
  | char c cs head ih =>
    rw [piecesFrom_char head] at h
    rcases List.mem_cons.1 h with same | h
    · cases same
    · exact ih h

theorem sound_piecesFrom (finds : Finds head?) (cs : List Char) : Sound (piecesFrom head? 0 cs) := by
  intro name mem
  obtain ⟨rest, head⟩ := found_of_mem_piecesFrom finds mem
  exact (finds _ _ head).2

end Template

end Questline
