import Mathlib.Data.List.Perm.Basic
import Mathlib.Data.List.TakeWhile
import Questline.Proofs.Entries
import Questline.Proofs.Pieces

/-!
# Filling in texts

A table is filled into a text entry after entry.  A value that is put in the place of a token comes to
stand between what was around the token, and if there are braces around it, they may now belong to a
token that was not there before.  If its name comes later in the table, it is filled in as well; if it
comes earlier, or is the very name, it is left.

Each step takes braces away and brings none (`braces_replaceToken_lt`).  So a text is left as it is just
if it has no token that the table knows, and filling in twice is filling in once just if no such token
was left the first time.

To be independent of the order, one has to look at the text with all tokens filled in at once.  If no
token is completed there, none is on the way, in whatever order, and the result is the same
(`fillList_eq_of_free`).  If one is, then what it is completed from can be seen in the text: a span between
two braces, of tokens and of characters (`exists_span`).  No replacement reaches across the ends of the
span, so it becomes that token also on the way; and if its name comes first, it is left
(`infix_fillList_of_span`).

* `Piece.filled`: the value of the table in the place of a token.
* `fillList_spell`: filling in is done piece by piece, as long as no token is completed.
* `fillAtOnce`: all tokens that the table knows filled in at once.
* `fill_again_iff`: when filling in again changes nothing.
* `scan`: a text in the tokens that are reported and the characters between them.
* `fill_tokens_exactly`: what is filled in, and what is reported afterwards, if all braces are those of
  tokens.
-/

namespace Questline

/-- There are no braces in a table. -/
def TemplateTable.IsPlain (table : TemplateTable) : Prop :=
  ∀ e ∈ table, Template.Plain e.1.toList ∧ Template.Plain e.2.toList

instance (table : TemplateTable) : Decidable table.IsPlain :=
  inferInstanceAs (Decidable (∀ e ∈ table, Template.Plain e.1.toList ∧ Template.Plain e.2.toList))

theorem TemplateTable.IsPlain.perm {table order : TemplateTable} (plain : table.IsPlain)
    (perm : order.Perm table) : order.IsPlain :=
  fun e mem => plain e (perm.mem_iff.1 mem)

theorem TemplateTable.IsPlain.tail {table : TemplateTable} {e : String × String}
    (plain : TemplateTable.IsPlain (e :: table)) : table.IsPlain :=
  fun e' mem => plain e' (List.mem_cons_of_mem e mem)

namespace Template

variable {table order : TemplateTable} {e : String × String} {name value cs : List Char}
variable {ps span : List Piece} {c : Char}

theorem plain_of_mem_names (plain : table.IsPlain) {key : String} (h : key ∈ table.names) :
    Plain key.toList := by
  obtain ⟨e, mem, rfl⟩ := List.mem_map.1 h
  exact (plain e mem).1

/-! ## Filling in piece by piece -/

theorem fillList_cons :
    fillList (e :: table) cs = fillList table (replaceToken e.1.toList e.2.toList cs) := rfl

/-- A piece after a table has been filled in: a token has got its value in its place. -/
def Piece.filled (table : TemplateTable) : Piece → List Piece
  | .char c => [.char c]
  | .token name =>
    match table.get? (String.ofList name) with
    | some value => value.toList.map .char
    | none => [.token name]

theorem flatMap_filled_nil (ps : List Piece) : ps.flatMap (Piece.filled []) = ps := by
  have each : Piece.filled [] = fun p => [p] := by
    funext p
    cases p <;> rfl
  rw [each, List.flatMap_singleton']

/-- A token that is there after filling in has been there before, and is not known. -/
theorem of_token_mem_filled {p : Piece} (h : .token name ∈ Piece.filled table p) :
    p = .token name ∧ table.get? (String.ofList name) = none := by
  cases p with
  | char c => cases List.mem_singleton.1 h
  | token other =>
    rw [Piece.filled] at h
    split at h
    case h_1 =>
      obtain ⟨c, -, no⟩ := List.mem_map.1 h
      cases no
    case h_2 unknown =>
      cases List.mem_singleton.1 h
      exact ⟨rfl, unknown⟩

theorem flatMap_chars {f : Piece → List Piece} (keeps : ∀ c, f (.char c) = [.char c])
    (cs : List Char) : (cs.map .char).flatMap f = cs.map .char := by
  induction cs with
  | nil => rfl
  | cons c cs ih => rw [List.map_cons, List.flatMap_cons, keeps, ih, List.singleton_append]

/-- Characters stay where they are. -/
theorem Spelled.flatMap {f : Piece → List Piece} (keeps : ∀ c, f (.char c) = [.char c])
    (h : Spelled name ps) : Spelled name (ps.flatMap f) := by
  obtain ⟨before, after, rfl⟩ := h
  refine ⟨before.flatMap f, after.flatMap f, ?_⟩
  rw [List.flatMap_append, List.flatMap_append, flatMap_chars keeps]

theorem Sound.put (h : Sound ps) : Sound (ps.flatMap (Piece.put name value)) := by
  intro other mem
  obtain ⟨p, hp, mem⟩ := List.mem_flatMap.1 mem
  cases p with
  | char c => cases List.mem_singleton.1 mem
  | token n =>
    rw [Piece.put] at mem
    split at mem
    case isTrue =>
      obtain ⟨c, -, no⟩ := List.mem_map.1 mem
      cases no
    case isFalse =>
      cases List.mem_singleton.1 mem
      exact h other hp

/-- The first entry is filled in, and then the others. -/
theorem flatMap_put_filled :
    (ps.flatMap (Piece.put e.1.toList e.2.toList)).flatMap (Piece.filled table) =
      ps.flatMap (Piece.filled (e :: table)) := by
  rw [List.flatMap_assoc]
  congr 1
  funext p
  cases p with
  | char c => rfl
  | token name =>
    by_cases h : name = e.1.toList
    · subst h
      rw [Piece.put, if_pos rfl, flatMap_chars fun _ => rfl]
      simp [Piece.filled, Entries.get?]
    · have other : (e.1 == String.ofList name) = false := by
        rw [beq_eq_false_iff_ne]
        rintro rfl'
        exact h (by rw [rfl', String.toList_ofList])
      rw [Piece.put, if_neg h, List.flatMap_singleton]
      simp [Piece.filled, Entries.get?, other]

/-- **Filling in is done piece by piece**, if in the end no characters spell a token that the table
knows. -/
theorem fillList_spell (plain : table.IsPlain) (sound : Sound ps)
    (free : ∀ key ∈ table.names, ¬Spelled key.toList (ps.flatMap (Piece.filled table))) :
    fillList table (spell ps) = spell (ps.flatMap (Piece.filled table)) := by
  induction table generalizing ps with
  | nil =>
    rw [flatMap_filled_nil]
    rfl
  | cons e table ih =>
    have first : ¬Spelled e.1.toList ps := fun spelled =>
      free e.1 List.mem_cons_self (spelled.flatMap fun _ => rfl)
    rw [fillList_cons, replaceToken_spell (plain e List.mem_cons_self).1 sound first,
      ih plain.tail sound.put ?_, flatMap_put_filled]
    intro key mem
    rw [flatMap_put_filled]
    exact free key (List.mem_cons_of_mem e.1 mem)

/-! ## What is left as it is -/

/-- The number of braces. -/
def braces (cs : List Char) : Nat := cs.countP isBrace

theorem braces_append (a b : List Char) : braces (a ++ b) = braces a + braces b := List.countP_append

theorem braces_of_plain (h : Plain cs) : braces cs = 0 := by
  rw [braces, List.countP_eq_zero]
  intro c mem
  simp [h c mem]

theorem braces_token (h : Plain name) : braces (token name) = 4 := by
  rw [token, braces_append, braces_append, braces_of_plain h]
  rfl

theorem braces_replaceToken_le (plain : Plain name) (bare : Plain value) :
    braces (replaceToken name value cs) ≤ braces cs := by
  induction cs using induction_on_token name with
  | nil => exact Nat.le_refl _
  | token cs ih =>
    rw [replaceToken_token, braces_append, braces_append, braces_of_plain bare, braces_token plain]
    omega
  | char c cs head ih =>
    rw [replaceToken_char head, ← List.singleton_append, ← List.singleton_append (l := cs),
      braces_append, braces_append]
    omega

/-- Replacing a token takes its braces away. -/
theorem braces_replaceToken_lt (plain : Plain name) (bare : Plain value) (h : token name <:+: cs) :
    braces (replaceToken name value cs) < braces cs := by
  induction cs using induction_on_token name with
  | nil => exact absurd (List.infix_nil.1 h) (token_ne_nil name)
  | token cs _ =>
    have rest : braces (replaceToken name value cs) ≤ braces cs := braces_replaceToken_le plain bare
    rw [replaceToken_token, braces_append, braces_append, braces_of_plain bare, braces_token plain]
    omega
  | char c cs head ih =>
    have ih := ih ((List.infix_cons_iff.1 h).resolve_left head)
    rw [replaceToken_char head, ← List.singleton_append, ← List.singleton_append (l := cs),
      braces_append, braces_append]
    omega

theorem braces_fillList_le (plain : table.IsPlain) : braces (fillList table cs) ≤ braces cs := by
  induction table generalizing cs with
  | nil => exact Nat.le_refl _
  | cons e table ih =>
    obtain ⟨key, bare⟩ := plain e List.mem_cons_self
    exact (ih plain.tail).trans
      (braces_replaceToken_le key bare)

theorem braces_fillList_lt (plain : table.IsPlain) {key : String} (mem : key ∈ table.names)
    (h : token key.toList <:+: cs) : braces (fillList table cs) < braces cs := by
  induction table generalizing cs with
  | nil => cases mem
  | cons e table ih =>
    obtain ⟨first, bare⟩ := plain e List.mem_cons_self
    rw [fillList_cons]
    by_cases found : token e.1.toList <:+: cs
    · exact (braces_fillList_le plain.tail).trans_lt (braces_replaceToken_lt first bare found)
    · rw [replaceToken_of_absent found]
      rcases List.mem_cons.1 mem with rfl | mem
      · exact absurd h found
      · exact ih plain.tail mem h

/-- **A text is left as it is** just if it has no token that the table knows. -/
theorem fillList_eq_self_iff (plain : table.IsPlain) :
    fillList table cs = cs ↔ ∀ key ∈ table.names, ¬token key.toList <:+: cs := by
  constructor
  · intro same key mem h
    have less := braces_fillList_lt plain mem h
    rw [same] at less
    exact Nat.lt_irrefl _ less
  · intro free
    induction table with
    | nil => rfl
    | cons e table ih =>
      rw [fillList_cons, replaceToken_of_absent (free e.1 List.mem_cons_self)]
      exact ih plain.tail
        fun key mem => free key (List.mem_cons_of_mem e.1 mem)

/-! ## All at once -/

/-- The name of a token that the table knows and the text begins with. -/
def known? (table : TemplateTable) (cs : List Char) : Option (List Char) :=
  (table.names.map String.toList).find? fun name => (token name).isPrefixOf cs

/-- A text in the tokens that a table knows and the characters between them. -/
def cut (table : TemplateTable) (cs : List Char) : List Piece := piecesFrom (known? table) 0 cs

/-- A text with all tokens that the table knows filled in at once: each has got its value in its place,
and all else is left as it is. -/
def fillAtOnce (table : TemplateTable) (s : String) : String :=
  String.ofList (spell ((cut table s.toList).flatMap (Piece.filled table)))

/-- A text has a token that the table knows. -/
def HasKnown (table : TemplateTable) (s : String) : Prop :=
  ∃ key ∈ table.names, token key.toList <:+: s.toList

instance (table : TemplateTable) (s : String) : Decidable (HasKnown table s) :=
  inferInstanceAs (Decidable (∃ key ∈ table.names, token key.toList <:+: s.toList))

theorem finds_known (plain : table.IsPlain) : Finds (known? table) := by
  intro cs name h
  obtain ⟨key, mem, rfl⟩ := List.mem_map.1 (List.mem_of_find?_eq_some h)
  exact ⟨by simpa using List.find?_some h, plain_of_mem_names plain mem⟩

theorem mem_names_of_mem_cut (plain : table.IsPlain) (h : .token name ∈ cut table cs) :
    String.ofList name ∈ table.names := by
  obtain ⟨rest, head⟩ := found_of_mem_piecesFrom (finds_known plain) h
  obtain ⟨key, mem, rfl⟩ := List.mem_map.1 (List.mem_of_find?_eq_some head)
  rwa [String.ofList_toList]

/-- The characters between the tokens spell none that the table knows. -/
theorem not_spelled_cut (plain : table.IsPlain) {key : String} (mem : key ∈ table.names) :
    ¬Spelled key.toList (cut table cs) := by
  rw [cut]
  induction cs using (finds_known plain).induction with
  | nil =>
    intro h
    cases List.infix_nil.1 h
  | token other cs head ih =>
    rw [piecesFrom_token head]
    intro h
    rcases List.infix_cons_iff.1 h with first | later
    · cases (List.cons_prefix_cons.1 first).1
    · exact ih later
  | char c cs head ih =>
    rw [piecesFrom_char head]
    intro h
    rcases List.infix_cons_iff.1 h with first | later
    · obtain ⟨rest, hrest⟩ := first
      have text := congrArg spell hrest
      rw [spell_append, spell_chars, spell_char, spell_piecesFrom (finds_known plain)] at text
      rw [known?, List.find?_eq_none] at head
      apply head key.toList (List.mem_map_of_mem mem)
      rw [← text]
      simp
    · exact ih later

/-- After all is filled in there are only characters. -/
theorem cut_filled (plain : table.IsPlain) :
    ((spell ((cut table cs).flatMap (Piece.filled table))).map .char) =
      (cut table cs).flatMap (Piece.filled table) := by
  have chars {ps : List Piece} (h : ∀ name, .token name ∉ ps) : (spell ps).map .char = ps := by
    induction ps with
    | nil => rfl
    | cons p ps ih =>
      cases p with
      | char c => rw [spell_char, List.map_cons, ih fun name mem => h name (List.mem_cons_of_mem _ mem)]
      | token name => exact absurd List.mem_cons_self (h name)
  apply chars
  intro name mem
  obtain ⟨p, hp, mem⟩ := List.mem_flatMap.1 mem
  obtain ⟨rfl, unknown⟩ := of_token_mem_filled mem
  obtain ⟨e, he, same⟩ := List.mem_map.1 (mem_names_of_mem_cut plain hp)
  rw [Entries.get?, Option.map_eq_none_iff, List.find?_eq_none] at unknown
  exact unknown e he (beq_iff_eq.2 same)

theorem spelled_cut_filled_iff (plain : table.IsPlain) :
    Spelled name ((cut table cs).flatMap (Piece.filled table)) ↔
      token name <:+: spell ((cut table cs).flatMap (Piece.filled table)) := by
  constructor
  · rintro ⟨before, after, same⟩
    refine ⟨spell before, spell after, ?_⟩
    rw [← same, spell_append, spell_append, spell_chars]
  · rintro ⟨before, after, same⟩
    refine ⟨before.map .char, after.map .char, ?_⟩
    rw [← cut_filled plain, ← same, List.map_append, List.map_append]

/-- A table gives the same values in every order. -/
theorem filled_perm (distinct : table.names.Nodup) (perm : order.Perm table) :
    Piece.filled order = Piece.filled table := by
  have ordered : order.names.Nodup := ((perm.map Prod.fst).nodup_iff).2 distinct
  have same (key : String) : order.get? key = table.get? key := by
    ext value
    rw [Entries.get?_eq_some_iff ordered, Entries.get?_eq_some_iff distinct, perm.mem_iff]
  funext p
  cases p with
  | char c => rfl
  | token name => rw [Piece.filled, Piece.filled, same]

/-- **If no token is completed by filling in all at once, the order does not matter.** -/
theorem fillList_eq_of_free (plain : table.IsPlain) (distinct : table.names.Nodup)
    (perm : order.Perm table)
    (free : ∀ key ∈ table.names,
      ¬token key.toList <:+: spell ((cut table cs).flatMap (Piece.filled table))) :
    fillList order cs = spell ((cut table cs).flatMap (Piece.filled table)) := by
  have finds := finds_known plain
  have piecewise : fillList order (spell (cut table cs)) =
      spell ((cut table cs).flatMap (Piece.filled order)) := by
    apply fillList_spell (plain.perm perm) (sound_piecesFrom finds cs)
    intro key mem spelled
    rw [filled_perm distinct perm] at spelled
    exact free key ((perm.map Prod.fst).mem_iff.1 mem) ((spelled_cut_filled_iff plain).1 spelled)
  rwa [filled_perm distinct perm, cut, spell_piecesFrom finds] at piecewise

/-! ## Completed tokens -/

/-- Pieces between two braces. -/
def Framed (ps : List Piece) : Prop :=
  ∃ middle, ps = .char '\x7b' :: (middle ++ [.char '\x7d'])

/-- No value brings a brace. -/
theorem char_not_mem_filled (plain : table.IsPlain) (brace : isBrace c = true) :
    .char c ∉ Piece.filled table (.token name) := by
  intro mem
  rw [Piece.filled] at mem
  split at mem
  case h_1 value known =>
    obtain ⟨d, hd, same⟩ := List.mem_map.1 mem
    cases same
    obtain ⟨e, he, rfl⟩ := Option.map_eq_some_iff.1 known
    rw [(plain e (List.mem_of_find?_eq_some he)).2 c hd] at brace
    cases brace
  case h_2 => cases List.mem_singleton.1 mem

/-- A brace that is there after filling in has been there before. -/
theorem split_at_brace (plain : table.IsPlain) (brace : isBrace c = true) {before after : List Piece}
    (h : ps.flatMap (Piece.filled table) = before ++ .char c :: after) :
    ∃ front back, ps = front ++ .char c :: back ∧ front.flatMap (Piece.filled table) = before ∧
      back.flatMap (Piece.filled table) = after := by
  induction ps generalizing before with
  | nil => simp at h
  | cons p ps ih =>
    rw [List.flatMap_cons] at h
    cases p with
    | char d =>
      cases before with
      | nil =>
        obtain ⟨same, rfl⟩ := List.cons.inj h
        cases same
        exact ⟨[], ps, rfl, rfl, rfl⟩
      | cons b before =>
        obtain ⟨rfl, later⟩ := List.cons.inj h
        obtain ⟨front, back, rfl, rfl, rfl⟩ := ih later
        exact ⟨.char d :: front, back, rfl, rfl, rfl⟩
    | token name =>
      have none : .char c ∉ Piece.filled table (.token name) := char_not_mem_filled plain brace
      rcases List.append_eq_append_iff.1 h with ⟨rest, rfl, later⟩ | ⟨rest, value, later⟩
      · obtain ⟨front, back, rfl, rfl, rfl⟩ := ih later
        exact ⟨.token name :: front, back, rfl, rfl, rfl⟩
      · cases rest with
        | nil =>
          have start : ps.flatMap (Piece.filled table) = [] ++ .char c :: after := later.symm
          obtain ⟨front, back, rfl, empty, rfl⟩ := ih start
          refine ⟨.token name :: front, back, rfl, ?_, rfl⟩
          rw [List.flatMap_cons, empty, value]
          simp
        | cons x rest =>
          obtain ⟨rfl, -⟩ := List.cons.inj later
          rw [value] at none
          exact absurd (List.mem_append_right _ List.mem_cons_self) none

/-- **A completed token comes from a span** between two braces of the text. -/
theorem exists_span (plain : table.IsPlain) (h : Spelled name (ps.flatMap (Piece.filled table))) :
    ∃ front span back, ps = front ++ span ++ back ∧ Framed span ∧
      span.flatMap (Piece.filled table) = (token name).map .char := by
  obtain ⟨before, after, same⟩ := h
  have opened : ps.flatMap (Piece.filled table) =
      before ++ .char '\x7b' :: (('\x7b' :: name ++ ['\x7d']).map .char ++ .char '\x7d' :: after) := by
    rw [← same]
    simp [token_eq, closing]
  obtain ⟨front, later, rfl, -, closed⟩ := split_at_brace plain rfl opened
  obtain ⟨middle, back, rfl, inner, -⟩ := split_at_brace plain rfl closed
  refine ⟨front, .char '\x7b' :: (middle ++ [.char '\x7d']), back, by simp, ⟨middle, rfl⟩, ?_⟩
  rw [List.flatMap_cons, List.flatMap_append, inner]
  simp [Piece.filled, token_eq, closing]

/-- Between the braces of a span is what becomes the name, between two more braces. -/
theorem inner_of_framed {middle : List Piece}
    (whole : (.char '\x7b' :: (middle ++ [.char '\x7d'])).flatMap (Piece.filled table) =
      (token name).map .char) :
    middle.flatMap (Piece.filled table) = ('\x7b' :: name ++ ['\x7d']).map .char := by
  have ends : (token name).map Piece.char =
      .char '\x7b' :: (('\x7b' :: name ++ ['\x7d']).map .char ++ [.char '\x7d']) := by
    simp [token_eq, closing]
  rw [ends, List.flatMap_cons, List.flatMap_append] at whole
  exact List.append_cancel_right (List.cons.inj whole).2

/-- Characters of a span spell no token but the one that it becomes. -/
theorem eq_of_spelled {key : List Char} (plain : Plain name) (bare : Plain key)
    (whole : span.flatMap (Piece.filled table) = (token name).map .char) (h : Spelled key span) :
    key = name := by
  obtain ⟨before, after, same⟩ := h.flatMap (f := Piece.filled table) fun _ => rfl
  have text := congrArg spell (same.trans whole)
  rw [spell_append, spell_append, spell_chars, spell_chars] at text
  exact eq_of_within_token bare plain ⟨_, _, text⟩

section Span

variable (framed : Framed span) (whole : span.flatMap (Piece.filled table) = (token name).map .char)

include framed whole

/-- The text of a span begins with two opening braces. -/
theorem Framed.opened : ∃ rest, spell span = opening ++ rest := by
  obtain ⟨middle, rfl⟩ := framed
  have inner := inner_of_framed whole
  cases middle with
  | nil => cases inner
  | cons p middle =>
    cases p with
    | token other => exact ⟨'\x7b' :: (other ++ closing) ++ spell (middle ++ [.char '\x7d']), rfl⟩
    | char c =>
      cases (List.cons.inj inner).1
      exact ⟨spell (middle ++ [.char '\x7d']), rfl⟩

/-- The text of a span ends with two closing braces. -/
theorem Framed.closed : ∃ front, spell span = front ++ closing := by
  obtain ⟨middle, rfl⟩ := framed
  have inner := inner_of_framed whole
  rcases List.eq_nil_or_concat middle with rfl | ⟨middle, p, rfl⟩
  · cases inner
  · cases p with
    | token other =>
      refine ⟨'\x7b' :: spell middle ++ opening ++ other ++ ['\x7d'], ?_⟩
      simp [token, closing]
    | char c =>
      have last := congrArg List.getLast? inner
      rw [List.getLast?_map, List.getLast?_concat] at last
      have same : c = '\x7d' := by simpa [Piece.filled] using last
      exact ⟨'\x7b' :: spell middle, by simp [same, closing]⟩

end Span

theorem Framed.put (h : Framed span) : Framed (span.flatMap (Piece.put name value)) := by
  obtain ⟨middle, rfl⟩ := h
  exact ⟨middle.flatMap (Piece.put name value), by simp [Piece.put]⟩

/-- A replacement goes on within a span by itself. -/
theorem spell_put_within {key : List Char} (bare : Plain key) (sound : Sound span)
    (framed : Framed span) (whole : span.flatMap (Piece.filled table) = (token name).map .char)
    (free : ¬Spelled key span) (h : spell span <:+: cs) :
    spell (span.flatMap (Piece.put key value)) <:+: replaceToken key value cs := by
  obtain ⟨front, back, rfl⟩ := h
  obtain ⟨rest, opened⟩ := framed.opened whole
  obtain ⟨before, closed⟩ := framed.closed whole
  have left : Apart key front (spell span ++ back) := by
    rw [opened, List.append_assoc]
    exact apart_opening bare front _
  have right : Apart key (spell span) back := by
    rw [closed]
    exact apart_closing bare before back
  rw [List.append_assoc, replaceToken_append left, replaceToken_append right,
    replaceToken_spell bare sound free]
  exact ⟨_, _, (List.append_assoc _ _ _)⟩

/-- **A token that comes out of a span is left**, if its name is not in the table any more. -/
theorem infix_fillList_of_span (plain : table.IsPlain) (bare : Plain name)
    (new : String.ofList name ∉ table.names) (sound : Sound span) (framed : Framed span)
    (whole : span.flatMap (Piece.filled table) = (token name).map .char) (h : spell span <:+: cs) :
    token name <:+: fillList table cs := by
  induction table generalizing span cs with
  | nil =>
    rw [flatMap_filled_nil] at whole
    rwa [whole, spell_chars] at h
  | cons e table ih =>
    obtain ⟨key, -⟩ := plain e List.mem_cons_self
    have free : ¬Spelled e.1.toList span := by
      intro spelled
      apply new
      rw [← eq_of_spelled bare key whole spelled, String.ofList_toList]
      exact List.mem_cons_self
    rw [fillList_cons]
    exact ih plain.tail
      (fun mem => new (List.mem_cons_of_mem e.1 mem)) sound.put framed.put
      (flatMap_put_filled.trans whole) (spell_put_within key sound framed whole free h)

/-- **A token that is completed by filling in all at once is left in some order**: in every one in which
its name comes first. -/
theorem exists_order (plain : table.IsPlain) (distinct : table.names.Nodup) {key : String}
    (mem : key ∈ table.names)
    (h : token key.toList <:+: spell ((cut table cs).flatMap (Piece.filled table))) :
    ∃ order : TemplateTable, order.Perm table ∧ token key.toList <:+: fillList order cs := by
  obtain ⟨e, he, rfl⟩ := List.mem_map.1 mem
  obtain ⟨earlier, later, rfl⟩ := List.append_of_mem he
  have perm : (e :: (earlier ++ later)).Perm (earlier ++ e :: later) := List.perm_middle.symm
  have ordered : (Entries.names (e :: (earlier ++ later))).Nodup :=
    ((perm.map Prod.fst).nodup_iff).2 distinct
  have plain' := plain.perm perm
  have finds := finds_known plain
  obtain ⟨front, span, back, pieces, framed, whole⟩ :=
    exists_span plain ((spelled_cut_filled_iff plain).2 h)
  have sound : Sound span := fun name mem => sound_piecesFrom finds cs name
    (by rw [← cut, pieces]; simp [mem])
  have free : ¬Spelled e.1.toList span := by
    intro spelled
    have none : ¬Spelled e.1.toList (cut (earlier ++ e :: later) cs) := not_spelled_cut plain mem
    apply none
    rw [pieces]
    exact spelled.trans ⟨front, back, rfl⟩
  have inside : spell span <:+: cs := by
    refine ⟨spell front, spell back, ?_⟩
    rw [← spell_append, ← spell_append, ← pieces, cut, spell_piecesFrom finds]
  refine ⟨e :: (earlier ++ later), perm, ?_⟩
  rw [← filled_perm distinct perm] at whole
  rw [fillList_cons]
  refine infix_fillList_of_span plain'.tail
    (plain e he).1 ?_ sound.put framed.put (flatMap_put_filled.trans whole)
    (spell_put_within (plain e he).1 sound framed whole free inside)
  rw [String.ofList_toList]
  exact (List.nodup_cons.1 ordered).1

/-- **When filling in again changes nothing.**  A table without braces fills in a text, and filling it in
again changes nothing just if the first time no token was left that the table knows.  In every order of
the table filling in again changes nothing just if no such token is there once all are filled in at
once. -/
theorem fill_again_iff (table : TemplateTable) (plain : table.IsPlain) (distinct : table.names.Nodup)
    (text : String) :
    (fill table (fill table text) = fill table text ↔ ¬HasKnown table (fill table text)) ∧
      ((∀ order : TemplateTable, order.Perm table →
        fill order (fill order text) = fill order text) ↔ ¬HasKnown table (fillAtOnce table text)) := by
  have again {order : TemplateTable} (plain : order.IsPlain) :
      fill order (fill order text) = fill order text ↔ ¬HasKnown order (fill order text) := by
    rw [fill, fill, String.toList_ofList, String.ofList_inj, fillList_eq_self_iff plain]
    simp [HasKnown]
  have names {order : TemplateTable} (perm : order.Perm table) (s : String) :
      HasKnown order s ↔ HasKnown table s := by
    simp only [HasKnown, Entries.names, (perm.map Prod.fst).mem_iff]
  refine ⟨again plain, ?_, ?_⟩
  · rintro each ⟨key, mem, known⟩
    rw [fillAtOnce, String.toList_ofList] at known
    obtain ⟨order, perm, left⟩ := exists_order plain distinct mem known
    refine (again (plain.perm perm)).1 (each order perm) ((names perm _).2 ⟨key, mem, ?_⟩)
    rwa [fill, String.toList_ofList]
  · intro none order perm
    have free : ∀ key ∈ table.names,
        ¬token key.toList <:+: spell ((cut table text.toList).flatMap (Piece.filled table)) := by
      intro key mem known
      refine none ⟨key, mem, ?_⟩
      rwa [fillAtOnce, String.toList_ofList]
    have same : fill order text = fillAtOnce table text := by
      rw [fill, fillList_eq_of_free plain distinct perm free, fillAtOnce]
    rw [again (plain.perm perm), names perm, same]
    exact none

/-! ### A name within a name -/

/-- A companion's name, and what is known of it. -/
def companionTable : TemplateTable := [("companion_name", "Elf"), ("kind", "name")]

/-- A greeting is filled in once. -/
theorem waves_filled_once :
    companionTable.IsPlain ∧ companionTable.names.Nodup ∧
      ∀ order : TemplateTable, order.Perm companionTable →
        fill order (fill order "\x7b\x7bcompanion_name\x7d\x7d waves") =
          fill order "\x7b\x7bcompanion_name\x7d\x7d waves" := by
  have plain : companionTable.IsPlain := by decide +kernel
  have distinct : companionTable.names.Nodup := by decide +kernel
  exact ⟨plain, distinct, (fill_again_iff companionTable plain distinct _).2.2 (by decide +kernel)⟩

/-- **A name that is completed is filled in the second time.** -/
theorem kind_filled_twice :
    companionTable.IsPlain ∧ companionTable.names.Nodup ∧
      fill companionTable "\x7b\x7bcompanion_\x7b\x7bkind\x7d\x7d\x7d\x7d" =
        "\x7b\x7bcompanion_name\x7d\x7d" ∧
      fill companionTable (fill companionTable "\x7b\x7bcompanion_\x7b\x7bkind\x7d\x7d\x7d\x7d") =
        "Elf" := by
  decide +kernel

/-! ## The tokens that are reported -/

/-- A text in the tokens that are reported and the characters between them. -/
def scan (s : String) : List Piece := piecesFrom tokenHead? 0 s.toList

/-- The name of a piece that is a token. -/
def Piece.name? : Piece → Option String
  | .char _ => none
  | .token name => some (String.ofList name)

/-- Whether a piece is a brace that is not part of a token. -/
def Piece.isLoneBrace : Piece → Bool
  | .char c => isBrace c
  | .token _ => false

theorem tokenHead?_spec (h : tokenHead? cs = some name) :
    token name <+: cs ∧ Plain name ∧ name ≠ [] := by
  unfold tokenHead? at h
  split at h
  case h_1 rest =>
    simp only at h
    split at h
    case isTrue found =>
      cases Option.some.inj h
      simp only [Bool.and_eq_true, Bool.not_eq_true', List.isEmpty_eq_false_iff,
        List.isPrefixOf_iff_prefix] at found
      obtain ⟨nonempty, after, hafter⟩ := found
      refine ⟨⟨after, ?_⟩, fun c mem => ?_, nonempty⟩
      · have front := List.takeWhile_prefix (fun c => !isBrace c) (l := rest)
        rw [token_eq, List.cons_append, List.cons_append, List.append_assoc, hafter,
          List.prefix_iff_eq_append.1 front]
      · simpa using List.mem_takeWhile_imp mem
    case isFalse => cases h
  case h_2 => cases h

theorem finds_tokenHead : Finds tokenHead? := fun _ _ h =>
  ⟨(tokenHead?_spec h).1, (tokenHead?_spec h).2.1⟩

/-- A token that has a name without braces is found. -/
theorem tokenHead?_token (plain : Plain name) (nonempty : name ≠ []) :
    tokenHead? (token name ++ cs) = some name := by
  have taken : (name ++ closing ++ cs).takeWhile (fun c => !isBrace c) = name := by
    rw [List.append_assoc, List.takeWhile_append_of_pos]
    · simp [closing, isBrace]
    · intro c mem
      simp [plain c mem]
  have rest : (name ++ closing ++ cs).drop name.length = closing ++ cs := by simp
  rw [token_eq, List.cons_append, List.cons_append, tokenHead?]
  simp only [taken, rest]
  rw [if_pos (by simpa using nonempty)]

theorem tokenHead?_char (h : isBrace c = false) : tokenHead? (c :: cs) = none := by
  unfold tokenHead?
  split
  case h_1 same =>
    cases (List.cons.inj same).1
    cases h
  case h_2 => rfl

/-- The pieces of a text are the tokens that are reported. -/
theorem names_scan (s : String) : (scan s).filterMap Piece.name? = tokens s := by
  have each (skip : Nat) (cs : List Char) : (piecesFrom tokenHead? skip cs).filterMap Piece.name? =
      (tokensFrom skip cs).map String.ofList := by
    induction cs generalizing skip with
    | nil => cases skip <;> rfl
    | cons c cs ih =>
      cases skip with
      | succ skip => exact ih skip
      | zero =>
        rw [piecesFrom, tokensFrom]
        cases tokenHead? (c :: cs) with
        | none => exact ih 0
        | some name => exact congrArg (String.ofList name :: ·) (ih (name.length + 3))
  exact each 0 s.toList

/-- All braces are those of tokens that are reported. -/
structure Tidy (ps : List Piece) : Prop where
  noLoneBrace : ∀ p ∈ ps, p.isLoneBrace = false
  names : ∀ name, .token name ∈ ps → Plain name ∧ name ≠ []

theorem Tidy.tail {p : Piece} (h : Tidy (p :: ps)) : Tidy ps :=
  ⟨fun q mem => h.noLoneBrace q (List.mem_cons_of_mem p mem),
    fun name mem => h.names name (List.mem_cons_of_mem p mem)⟩

theorem Tidy.sound (h : Tidy ps) : Sound ps := fun name mem => (h.names name mem).1

/-- In a tidy text the tokens that are reported are those it is made of. -/
theorem Tidy.scan_spell (h : Tidy ps) : piecesFrom tokenHead? 0 (spell ps) = ps := by
  induction ps with
  | nil => rfl
  | cons p ps ih =>
    cases p with
    | char c =>
      have single : isBrace c = false := h.noLoneBrace _ List.mem_cons_self
      rw [spell_char, piecesFrom_char (tokenHead?_char single), ih h.tail]
    | token name =>
      obtain ⟨plain, nonempty⟩ := h.names name List.mem_cons_self
      rw [spell_token, piecesFrom_token (tokenHead?_token plain nonempty), ih h.tail]

theorem tidy_scan {s : String} (inTokens : ∀ p ∈ scan s, p.isLoneBrace = false) : Tidy (scan s) := by
  refine ⟨inTokens, fun name mem => ?_⟩
  obtain ⟨rest, head⟩ := found_of_mem_piecesFrom finds_tokenHead mem
  exact (tokenHead?_spec head).2

/-- Filling in leaves a text tidy. -/
theorem Tidy.filled (plain : table.IsPlain) (h : Tidy ps) : Tidy (ps.flatMap (Piece.filled table)) := by
  refine ⟨fun q mem => ?_, fun name mem => ?_⟩
  · obtain ⟨p, hp, mem⟩ := List.mem_flatMap.1 mem
    cases q with
    | token => rfl
    | char c =>
      cases p with
      | char d =>
        cases List.mem_singleton.1 mem
        exact h.noLoneBrace _ hp
      | token name =>
        by_contra brace
        exact char_not_mem_filled plain (by simpa [Piece.isLoneBrace] using brace) mem
  · obtain ⟨p, hp, mem⟩ := List.mem_flatMap.1 mem
    obtain ⟨rfl, -⟩ := of_token_mem_filled mem
    exact h.names name hp

theorem Tidy.not_spelled (h : Tidy ps) : ¬Spelled name ps := by
  intro spelled
  have brace : Piece.char '\x7b' ∈ (token name).map Piece.char := List.mem_cons_self
  cases h.noLoneBrace _ (spelled.subset brace)

/-- The tokens that are left are those that the table does not know. -/
theorem names_filled (ps : List Piece) :
    (ps.flatMap (Piece.filled table)).filterMap Piece.name? =
      (ps.filterMap Piece.name?).filter (· ∉ table.names) := by
  have chars (cs : List Char) : (cs.map Piece.char).filterMap Piece.name? = [] := by
    rw [List.filterMap_map, List.filterMap_eq_nil_iff]
    exact fun _ _ => rfl
  induction ps with
  | nil => rfl
  | cons p ps ih =>
    rw [List.flatMap_cons, List.filterMap_append, ih]
    cases p with
    | char c => rfl
    | token name =>
      have known : (table.get? (String.ofList name)).isSome ↔ String.ofList name ∈ table.names := by
        simp [Entries.get?, Entries.names]
      rw [Piece.filled]
      cases hv : table.get? (String.ofList name) with
      | some value =>
        have mem : String.ofList name ∈ table.names := known.1 (by rw [hv]; rfl)
        simp [chars, Piece.name?, mem]
      | none =>
        have new : String.ofList name ∉ table.names := fun mem => by
          have := known.2 mem
          rw [hv] at this
          cases this
        simp [Piece.name?, new]

/-- **What is filled in, and what is reported afterwards.**  A text is made of the tokens that are
reported and the characters between them.  If none of these is a brace, a table without braces puts its
values in the places of the tokens that it knows and leaves all else as it is, whatever its order, and
of the text that comes out just the other tokens are reported, in order. -/
theorem fill_tokens_exactly (table : TemplateTable) (plain : table.IsPlain)
    (distinct : table.names.Nodup) (text : String)
    (inTokens : ∀ p ∈ scan text, p.isLoneBrace = false) :
    spell (scan text) = text.toList ∧ (scan text).filterMap Piece.name? = tokens text ∧
      fill table text = String.ofList (spell ((scan text).flatMap (Piece.filled table))) ∧
      (∀ order : TemplateTable, order.Perm table → fill order text = fill table text) ∧
      tokens (fill table text) = (tokens text).filter (· ∉ table.names) := by
  have whole : spell (scan text) = text.toList := spell_piecesFrom finds_tokenHead text.toList
  have tidy := tidy_scan inTokens
  have ordered {order : TemplateTable} (perm : order.Perm table) :
      fill order text = String.ofList (spell ((scan text).flatMap (Piece.filled table))) := by
    rw [← filled_perm distinct perm, fill, ← whole, fillList_spell (plain.perm perm) tidy.sound]
    exact fun key _ => (tidy.filled (plain.perm perm)).not_spelled
  have filled := ordered (List.Perm.refl table)
  refine ⟨whole, names_scan text, filled, fun order perm => (ordered perm).trans filled.symm, ?_⟩
  rw [← names_scan, ← names_scan text, filled, scan, String.toList_ofList,
    (tidy.filled plain).scan_spell, names_filled]

/-- Two names next to each other are filled in, and the one that is not known is reported. -/
theorem guest_reported :
    companionTable.IsPlain ∧ companionTable.names.Nodup ∧
      (∀ p ∈ scan "\x7b\x7bkind\x7d\x7d\x7b\x7bkind\x7d\x7d, \x7b\x7bguest\x7d\x7d",
        p.isLoneBrace = false) ∧
      tokens (fill companionTable
        "\x7b\x7bkind\x7d\x7d\x7b\x7bkind\x7d\x7d, \x7b\x7bguest\x7d\x7d") = ["guest"] := by
  have plain : companionTable.IsPlain := by decide +kernel
  have distinct : companionTable.names.Nodup := by decide +kernel
  have inTokens : ∀ p ∈ scan "\x7b\x7bkind\x7d\x7d\x7b\x7bkind\x7d\x7d, \x7b\x7bguest\x7d\x7d",
      p.isLoneBrace = false := by decide +kernel
  obtain ⟨-, -, -, -, reported⟩ := fill_tokens_exactly companionTable plain distinct _ inTokens
  refine ⟨plain, distinct, inTokens, reported.trans ?_⟩
  decide +kernel

end Template

end Questline
