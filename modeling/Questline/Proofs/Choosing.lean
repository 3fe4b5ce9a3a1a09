import Mathlib.Data.Nat.Digits.Defs
import Questline.Proofs.Games

/-!
# Choosing an option

The player is asked for the number of an option until there is a line with one.  A line is taken without
the blanks at its ends.  If it is a decimal number of an option, in the digits of whatever script, then
the game goes on with that option.  Any other line gets a reproof, and the player is asked again.

There are digits that form no number, such as superscripts and circled numbers, and there may be more
digits than are converted.  A line of digits of which either is true gets no reproof: it ends the game.  So
the first number that is right is taken just if neither it nor a line before it is of that kind.

* `Text.Denotes`: the number that a text of decimal digits denotes, `Text.natural?_eq_some_iff`: it is
  the number that is read, if there are not too many digits.
* `Text.Misleads`: a text of digits that is not read as a number.
* `Game.line_of_selects`, `Game.line_of_misleads`, `Game.line_of_neither`: what becomes of a line.
* `Game.option_selected_iff`: the game after lines of which the last one is right.
-/

namespace Questline

/-! ## Numbers in lines -/

namespace Text

/-- A text of decimal digits denotes a number: its digits are digits of the number in base ten. -/
def Denotes (s : String) (n : Nat) : Prop :=
  ∃ ds : List Nat, s.toList ≠ [] ∧ s.toList.map decimalValue? = ds.map some ∧
    Nat.ofDigits 10 ds.reverse = n

/-- A text of digits misleads if there is one among them that is no decimal digit, or there are more than
`maxDigits` of them. -/
def Misleads (s : String) : Prop :=
  (∀ c ∈ s.toList, isDigit c) ∧ ((∃ c ∈ s.toList, decimalValue? c = none) ∨ maxDigits < s.toList.length)

variable {s : String} {cs : List Char} {ds : List Nat} {n : Nat}

theorem mapM_eq_some_iff : cs.mapM decimalValue? = some ds ↔ cs.map decimalValue? = ds.map some := by
  induction cs generalizing ds with
  | nil => cases ds <;> simp
  | cons c cs ih =>
    rw [List.mapM_cons]
    cases ds with
    | nil => simp [Option.bind_eq_some_iff]
    | cons d ds => simp [Option.bind_eq_some_iff, ih]

theorem mapM_eq_none_iff : cs.mapM decimalValue? = none ↔ ∃ c ∈ cs, decimalValue? c = none := by
  induction cs with
  | nil => simp
  | cons c cs ih =>
    rw [List.mapM_cons]
    cases hc : decimalValue? c with
    | none => simp [hc]
    | some d => cases hcs : cs.mapM decimalValue? <;> simp [hc, hcs, ← ih]

theorem foldl_digits (ds : List Nat) :
    ds.foldl (fun n d => 10 * n + d) 0 = Nat.ofDigits 10 ds.reverse := by
  induction ds using List.reverseRecOn with
  | nil => rfl
  | append_singleton ds d ih =>
    rw [List.foldl_append, ih, List.reverse_append, List.reverse_singleton, List.singleton_append,
      Nat.ofDigits_cons]
    simp [Nat.add_comm]

theorem denotes_iff : Denotes s n ↔ s.toList ≠ [] ∧
    (s.toList.mapM decimalValue?).map (·.foldl (fun n d => 10 * n + d) 0) = some n := by
  simp only [Denotes, Option.map_eq_some_iff, mapM_eq_some_iff, foldl_digits]
  constructor
  · rintro ⟨ds, some, values, number⟩
    exact ⟨some, ds, values, number⟩
  · rintro ⟨some, ds, values, number⟩
    exact ⟨ds, some, values, number⟩

instance (s : String) (n : Nat) : Decidable (Denotes s n) := decidable_of_iff _ denotes_iff.symm

/-- **The number that is read** is the one that a text denotes, if it is not too long. -/
theorem natural?_eq_some_iff : natural? s = some n ↔ Denotes s n ∧ s.toList.length ≤ maxDigits := by
  rw [natural?, denotes_iff]
  by_cases none : s.toList = []
  · simp [none]
  by_cases long : maxDigits < s.toList.length
  · simp [long]
  · simp [none, long, Nat.le_of_not_lt long]

theorem natural?_eq_none_iff (some : s.toList ≠ []) :
    natural? s = none ↔ (∃ c ∈ s.toList, decimalValue? c = none) ∨ maxDigits < s.toList.length := by
  by_cases long : maxDigits < s.toList.length
  · simp [natural?, long]
  · simp [natural?, some, long, mapM_eq_none_iff]

/-- Decimal digits are digits. -/
theorem isDigits_of_denotes (h : Denotes s n) : isDigits s := by
  obtain ⟨ds, some, values, -⟩ := h
  have digits : ∀ c ∈ s.toList, isDigit c := by
    intro c hc
    have value : decimalValue? c ∈ ds.map Option.some := values ▸ List.mem_map_of_mem hc
    obtain ⟨d, -, hd⟩ := List.mem_map.1 value
    simp [isDigit, ← hd]
  simpa [isDigits, some] using digits

theorem misleads_iff : Misleads s ↔ isDigits s ∧ natural? s = none := by
  by_cases none : s.toList = []
  · simp [Misleads, isDigits, none]
  · simp [Misleads, isDigits, none, natural?_eq_none_iff none]

instance (s : String) : Decidable (Misleads s) := decidable_of_iff _ misleads_iff.symm

end Text

/-! ## Lines -/

namespace Prompt

/-- What the player is told about a line that is no number of an option. -/
def reproof (count : Nat) : String :=
  Console.line ("Invalid selection. Please enter a number from 1 to " ++ natText count ++ ".")

/-- A line selects the option of a number: without the blanks at its ends it denotes the number, and
there are as many options. -/
def Selects (count : Nat) (l : String) (k : Nat) : Prop := Text.Denotes (Text.trim l) k ∧ 1 ≤ k ∧ k ≤ count

variable {count k : Nat} {l : String}

instance : Decidable (Selects count l k) := inferInstanceAs (Decidable (_ ∧ _))

instance : Decidable (∀ k, ¬Selects count l k) :=
  decidable_of_iff (∀ k ≤ count, ¬Selects count l k) ⟨fun none k h => none k h.2.2 h, fun none k _ => none k⟩

theorem read_of_selects (h : Selects count l k) (honest : ¬Text.Misleads (Text.trim l)) :
    (Prompt.option count).read l = .answer (.int (k - 1 : Nat)) := by
  obtain ⟨denotes, range⟩ := h
  have digits := Text.isDigits_of_denotes denotes
  have number : Text.natural? (Text.trim l) = some k := by
    refine Text.natural?_eq_some_iff.2 ⟨denotes, Nat.le_of_not_lt fun long => ?_⟩
    have all : ∀ c ∈ (Text.trim l).toList, Text.isDigit c := by
      simpa [Text.isDigits] using (Bool.and_eq_true_iff.1 digits).2
    exact honest ⟨all, .inr long⟩
  rw [read, readOption, if_pos digits, number]
  exact if_pos range

theorem read_of_misleads (h : Text.Misleads (Text.trim l)) :
    (Prompt.option count).read l = .failed (.badNumeral (.unreadable (Text.trim l))) := by
  obtain ⟨digits, noNumber⟩ := Text.misleads_iff.1 h
  rw [read, readOption, if_pos digits, noNumber]

theorem read_of_neither (none : ∀ k, ¬Selects count l k) (honest : ¬Text.Misleads (Text.trim l)) :
    (Prompt.option count).read l = .again (reproof count) := by
  rw [read, readOption]
  split
  case isFalse => rfl
  case isTrue digits =>
    split
    case h_1 noNumber => exact absurd (Text.misleads_iff.2 ⟨digits, noNumber⟩) honest
    case h_2 k number =>
      exact if_neg fun range => none k ⟨(Text.natural?_eq_some_iff.1 number).1, range⟩

end Prompt

namespace Game

open Prompt (Selects reproof)

/-- The game after lines, and what is shown meanwhile. -/
def through (g : Game) : List String → Game × String
  | [] => (g, "")
  | l :: ls =>
    (((g.line (some l)).1.through ls).1, (g.line (some l)).2 ++ ((g.line (some l)).1.through ls).2)

variable {c : Console} {s : Session} {count k : Nat} {l : String}

/-- **A line that selects an option** lets the game go on, unless it misleads. -/
theorem line_of_selects (h : Selects count l k) (honest : ¬Text.Misleads (Text.trim l)) (c : Console)
    (s : Session) :
    line ⟨c, .prompt s (.option count)⟩ (some l) = (begin c s (.advance (.int (k - 1 : Nat))), "") := by
  simp only [line, Prompt.read_of_selects h honest, take]

/-- **A line that misleads** ends the game. -/
theorem line_of_misleads (h : Text.Misleads (Text.trim l)) (c : Console) (s : Session) :
    line ⟨c, .prompt s (.option count)⟩ (some l) =
      (⟨c, .over s.files 1⟩, faultText (.badNumeral (.unreadable (Text.trim l)))) := by
  simp only [line, Prompt.read_of_misleads h]
  rfl

/-- **Any other line** gets a reproof, and the player is asked again. -/
theorem line_of_neither (none : ∀ k, ¬Selects count l k) (honest : ¬Text.Misleads (Text.trim l))
    (c : Console) (s : Session) :
    line ⟨c, .prompt s (.option count)⟩ (some l) =
      (⟨c, .prompt s (.option count)⟩, reproof count ++ (Prompt.option count).text) := by
  simp only [line, Prompt.read_of_neither none honest, ask]

/-! ## Many lines -/

theorem through_append (g : Game) (ls ls' : List String) :
    g.through (ls ++ ls') =
      (((g.through ls).1.through ls').1, (g.through ls).2 ++ ((g.through ls).1.through ls').2) := by
  induction ls generalizing g with
  | nil => simp [through]
  | cons l ls ih => simp [through, ih, String.append_assoc]

/-- When a game is over, lines change nothing. -/
theorem through_over {files : FileTree} {code : Nat} (ls : List String) :
    through ⟨c, .over files code⟩ ls = (⟨c, .over files code⟩, "") := by
  induction ls with
  | nil => rfl
  | cons l ls ih => simp [through, line, ih]

/-- Each line that is neither gets its reproof. -/
theorem through_neither {ls : List String} (none : ∀ l ∈ ls, ∀ k, ¬Selects count l k)
    (honest : ∀ l ∈ ls, ¬Text.Misleads (Text.trim l)) (c : Console) (s : Session) :
    through ⟨c, .prompt s (.option count)⟩ ls = (⟨c, .prompt s (.option count)⟩,
      String.join (List.replicate ls.length (reproof count ++ (Prompt.option count).text))) := by
  induction ls with
  | nil => rfl
  | cons l ls ih =>
    have first := line_of_neither (none l List.mem_cons_self) (honest l List.mem_cons_self) c s
    have rest := ih (fun m hm => none m (List.mem_cons_of_mem l hm))
      fun m hm => honest m (List.mem_cons_of_mem l hm)
    rw [through, first, rest, List.length_cons, List.replicate_succ, String.join_cons]

/-- A line that misleads, before any number of an option, ends the game. -/
theorem through_misleads {ls : List String} (none : ∀ l ∈ ls, ∀ k, ¬Selects count l k)
    (misleads : ∃ l ∈ ls, Text.Misleads (Text.trim l)) (c : Console) (s : Session) :
    (through ⟨c, .prompt s (.option count)⟩ ls).1 = ⟨c, .over s.files 1⟩ := by
  induction ls with
  | nil => obtain ⟨l, hl, -⟩ := misleads; cases hl
  | cons l ls ih =>
    by_cases first : Text.Misleads (Text.trim l)
    · rw [through, line_of_misleads first, through_over]
    · have later : ∃ m ∈ ls, Text.Misleads (Text.trim m) := by
        obtain ⟨m, hm, h⟩ := misleads
        rcases List.mem_cons.1 hm with rfl | hm
        · exact absurd h first
        · exact ⟨m, hm, h⟩
      rw [through, line_of_neither (none l List.mem_cons_self) first]
      exact ih (fun m hm => none m (List.mem_cons_of_mem l hm)) later

/-- **The first number of an option is taken** just if neither its line nor one before it misleads.  Then
each line before it gets one reproof, and the game goes on with the option.  Otherwise the game is over. -/
theorem option_selected_iff {before : List String} (first : ∀ m ∈ before, ∀ j, ¬Selects count m j)
    (selects : Selects count l k) (c : Console) (s : Session) :
    (through ⟨c, .prompt s (.option count)⟩ (before ++ [l]) =
        (begin c s (.advance (.int (k - 1 : Nat))),
          String.join (List.replicate before.length (reproof count ++ (Prompt.option count).text))) ↔
      ∀ m ∈ before ++ [l], ¬Text.Misleads (Text.trim m)) ∧
    ((∃ m ∈ before ++ [l], Text.Misleads (Text.trim m)) →
      (through ⟨c, .prompt s (.option count)⟩ (before ++ [l])).1 = ⟨c, .over s.files 1⟩) := by
  have ends (misleads : ∃ m ∈ before ++ [l], Text.Misleads (Text.trim m)) :
      (through ⟨c, .prompt s (.option count)⟩ (before ++ [l])).1 = ⟨c, .over s.files 1⟩ := by
    rw [through_append]
    by_cases earlier : ∃ m ∈ before, Text.Misleads (Text.trim m)
    · rw [through_misleads first earlier, through_over]
    · obtain ⟨m, hm, last⟩ := misleads
      obtain rfl : m = l := by
        rcases List.mem_append.1 hm with hm | hm
        · exact absurd ⟨m, hm, last⟩ earlier
        · exact List.mem_singleton.1 hm
      rw [through_neither first fun m hm misleads => earlier ⟨m, hm, misleads⟩, through,
        line_of_misleads last]
      rfl
  refine ⟨⟨fun taken m hm misleads => ?_, fun honest => ?_⟩, ends⟩
  · have ended := ends ⟨m, hm, misleads⟩
    rw [taken] at ended
    cases ended
  · have last := honest l List.mem_concat_self
    rw [through_append, through_neither first fun m hm => honest m (List.mem_append_left _ hm), through,
      line_of_selects selects last]
    simp [through]

/-! ### Fight or flight -/

/-- The player has met the goblin and is to choose. -/
def met : Game := (begin {} (.fresh (.empty []) (.ofString "scripts") {}) (.startGraph ambush none)).steps 20

theorem met_asks : ∃ s, met.stage = .prompt s (.option 2) := by
  have asked : met.prompt? = some (.option 2) := by decide +kernel
  unfold prompt? at asked
  split at asked
  case h_1 s p stage => exact ⟨s, Option.some.inj asked ▸ stage⟩
  case h_2 => cases asked

/-- Lines that select no option. -/
def mumbled : List String := ["", "flee", "0", "3", "+2", "2.", "1_0"]

/-- Nothing but the number of an option will do, in whatever digits. -/
theorem flight_selected :
    (∀ m ∈ mumbled, ∀ j, ¬Selects 2 m j) ∧ Selects 2 " ٠٢ " 2 ∧
      ∃ s, met.stage = .prompt s (.option 2) ∧
        met.through (mumbled ++ [" ٠٢ "]) = (begin met.console s (.advance (.int 1)),
          String.join (List.replicate 7 (reproof 2 ++ (Prompt.option 2).text))) := by
  have first : ∀ m ∈ mumbled, ∀ j, ¬Selects 2 m j := by decide +kernel
  have selects : Selects 2 " ٠٢ " 2 := by decide +kernel
  have honest : ∀ m ∈ mumbled ++ [" ٠٢ "], ¬Text.Misleads (Text.trim m) := by decide +kernel
  obtain ⟨s, asked⟩ := met_asks
  refine ⟨first, selects, s, asked, ?_⟩
  generalize met = g at asked ⊢
  obtain ⟨c, stage⟩ := g
  obtain rfl : stage = .prompt s (.option 2) := asked
  exact (option_selected_iff first selects c s).1.2 honest

/-- **A line that ends the game**: a number of an option comes too late after it. -/
theorem squared_ends_game :
    (∀ m ∈ ["²"], ∀ j, ¬Selects 2 m j) ∧ Selects 2 "1" 1 ∧
      ∃ s, met.stage = .prompt s (.option 2) ∧
        met.through ["²", "1"] = (⟨met.console, .over s.files 1⟩,
          "Script failed: invalid literal for int() with base 10: '²'\n") := by
  have misleads : Text.Misleads (Text.trim "²") := by decide +kernel
  have told : faultText (.badNumeral (.unreadable (Text.trim "²"))) =
      "Script failed: invalid literal for int() with base 10: '²'\n" := by decide +kernel
  obtain ⟨s, asked⟩ := met_asks
  refine ⟨by decide +kernel, by decide +kernel, s, asked, ?_⟩
  generalize met = g at asked ⊢
  obtain ⟨c, stage⟩ := g
  obtain rfl : stage = .prompt s (.option 2) := asked
  rw [through, line_of_misleads misleads, through_over, told]
  rfl

end Game

end Questline
