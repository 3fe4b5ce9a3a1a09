import Questline.Console.Host
import Questline.Proofs.Entries

/-!
# The inventory of the console

Items are handed out and taken away, one or more of a kind at a time.  The inventory is a list to which
entries are added, in which they change and from which they are removed.  Its books are simple: of each
item there is what was handed out less what was taken away, the inventory lists what there is some of,
and items are refused just if there are too few of them.

What a call hands out is seen from the call alone.  What it takes away depends on the console, which may
refuse it.

* `Console.Stocks`: how many there are of each item.
* `Console.Stocks.answer`, `Console.Stocks.after`: what a call, and what many calls, change about it.
* `Console.inventory_conserved`: the books of a console that begins with nothing.
-/

namespace Questline

/-! ## Entries that change -/

namespace Entries

variable {α : Type} {es : Entries α}

theorem mem_put_iff (apart : es.names.Nodup) {name n : String} {a b : α} :
    (n, b) ∈ es.put name a ↔ if n = name then b = a else (n, b) ∈ es := by
  rw [← get?_eq_some_iff (nodup_names_put apart name a), get?_put]
  by_cases same : n = name
  · simp [same, eq_comm]
  · simp [same, Ne.symm same, get?_eq_some_iff apart]

theorem mem_erase_iff {name n : String} {b : α} : (n, b) ∈ es.erase name ↔ (n, b) ∈ es ∧ n ≠ name := by
  simp [erase]

theorem nodup_names_erase (apart : es.names.Nodup) (name : String) : (es.erase name).names.Nodup :=
  (List.filter_sublist.map _).nodup apart

end Entries

/-! ## Calls for items -/

namespace Call

/-- The item that a call is to change the number of. -/
def item? : Call → Option String
  | .giveItem item _ | .takeItem item _ => some item
  | _ => none

/-- Items are handed out and taken away in whole numbers from one on. -/
inductive IsOrderly : Call → Prop
  | give (item : String) {n : Int} (some : 1 ≤ n) : IsOrderly (.giveItem item (.int n))
  | take (item : String) {n : Int} (some : 1 ≤ n) : IsOrderly (.takeItem item (.int n))
  | other {call : Call} (free : call.item? = none) : IsOrderly call

/-- How many of an item a call hands out. -/
def gives (item : String) : Call → Int
  | .giveItem i (.int n) => if i = item then n else 0
  | _ => 0

theorem gives_of_free {call : Call} (free : call.item? = none) (item : String) : call.gives item = 0 := by
  cases call with
  | giveItem => cases free
  | _ => rfl

end Call

namespace Console

/-- How many of an item a call takes away: none if it is refused. -/
def takes (c : Console) (item : String) : Call → Int
  | .takeItem i (.int n) =>
    match (c.take i (.int n)).2.2 with
    | .ok true => if i = item then n else 0
    | _ => 0
  | _ => 0

/-- The console after calls. -/
def after (c : Console) : List Call → Console
  | [] => c
  | call :: calls => (c.answer call).1.after calls

/-- How many of an item calls hand out. -/
def given (item : String) : List Call → Int
  | [] => 0
  | call :: calls => call.gives item + given item calls

/-- How many of an item calls take away, one after the other. -/
def taken (c : Console) (item : String) : List Call → Int
  | [] => 0
  | call :: calls => c.takes item call + (c.answer call).1.taken item calls

variable {c : Console} {inventory : Entries Number} {count count' : String → Int} {call : Call}
  {item : String} {n : Int}

theorem takes_of_free (free : call.item? = none) (item : String) : c.takes item call = 0 := by
  cases call with
  | takeItem => cases free
  | _ => rfl

/-- Calls that are not for items leave the inventory alone. -/
theorem inventory_of_free (free : call.item? = none) : (c.answer call).1.inventory = c.inventory := by
  cases call with
  | giveItem | takeItem => cases free
  | present card =>
    unfold answer present
    dsimp only
    split <;> split <;> rfl
  | remove npc =>
    unfold answer answering remove
    dsimp only
    split <;> rfl
  | _ => rfl

/-! ## How many there are -/

/-- An inventory lists the items of which there are some, once each, and with their number. -/
structure Stocks (inventory : Entries Number) (count : String → Int) : Prop where
  apart : inventory.names.Nodup
  notNegative : ∀ item, 0 ≤ count item
  lists : ∀ item amount, (item, amount) ∈ inventory ↔ 0 < count item ∧ amount = .int (count item)

namespace Stocks

theorem empty : Stocks [] fun _ => 0 where
  apart := List.nodup_nil
  notNegative _ := Int.le_refl 0
  lists item amount := by simp

theorem held (h : Stocks c.inventory count) (item : String) : c.held item = .int (count item) := by
  rw [Console.held]
  have notNegative := h.notNegative item
  rcases Int.lt_or_le 0 (count item) with positive | small
  · have found : c.inventory.get? item = some (.int (count item)) :=
      (Entries.get?_eq_some_iff h.apart).2 ((h.lists item _).2 ⟨positive, rfl⟩)
    rw [found]
    rfl
  · have absent : c.inventory.get? item = none := by
      rw [Option.eq_none_iff_forall_ne_some]
      intro amount found
      have listed := (h.lists item amount).1 ((Entries.get?_eq_some_iff h.apart).1 found)
      omega
    have zero : count item = 0 := Int.le_antisymm small notNegative
    rw [absent, zero]
    rfl

/-- The number of an item changes, and no other. -/
theorem keep (h : Stocks inventory count) (own : count' item = n) (notNegative : 0 ≤ n)
    (others : ∀ i ≠ item, count' i = count i) : Stocks (Console.keep inventory item (.int n)) count' := by
  have all : ∀ i, 0 ≤ count' i := by
    intro i
    by_cases same : i = item
    · rwa [same, own]
    · rw [others i same]
      exact h.notNegative i
  have zero : (Number.int n).agrees (.int 0) = true ↔ n = 0 := beq_iff_eq
  unfold Console.keep
  split
  case isTrue none =>
    refine ⟨Entries.nodup_names_erase h.apart item, all, fun i amount => ?_⟩
    rw [Entries.mem_erase_iff, h.lists]
    by_cases same : i = item
    · simp [same, own, zero.1 none]
    · simp [same, others i same]
  case isFalse left =>
    have some : 0 < n := by
      have nonzero : n ≠ 0 := mt zero.2 left
      omega
    refine ⟨Entries.nodup_names_put h.apart item _, all, fun i amount => ?_⟩
    rw [Entries.mem_put_iff h.apart, h.lists]
    by_cases same : i = item
    · simp [same, own, some]
    · simp [same, others i same]

/-! ## A call -/

/-- Items are handed out. -/
theorem give_eq (h : Stocks c.inventory count) (item : String) (some : 1 ≤ n) :
    c.give item (.int n) =
      ({ c with inventory := Console.keep c.inventory item (.int (count item + n)) },
        itemText "+" (.int n) item, .ok ()) := by
  have notNegative := h.notNegative item
  have left : (Number.int (count item + n)).agrees (.int 0) = false := by
    rw [Number.agrees, beq_eq_false_iff_ne]
    omega
  rw [Console.give, h.held, Number.add?_int, Console.keep, left]
  rfl

/-- **Items of which there are enough are taken away.** -/
theorem take_of_enough (h : Stocks c.inventory count) (enough : n ≤ count item) :
    c.take item (.int n) =
      ({ c with inventory := Console.keep c.inventory item (.int (count item - n)) },
        itemText "-" (.int n) item, .ok true) := by
  rw [Console.take, h.held, Number.less_int, if_neg (by simpa using enough), Number.sub?_int]
  rfl

/-- **Items of which there are too few are refused**, and nothing changes. -/
theorem take_of_few (h : Stocks c.inventory count) (few : count item < n) :
    c.take item (.int n) = (c, "", .ok false) := by
  rw [Console.take, h.held, Number.less_int, if_pos (by simpa using few)]

/-- **What a call changes**: there are more of what it hands out and fewer of what it takes away. -/
theorem answer (h : Stocks c.inventory count) (orderly : call.IsOrderly) :
    Stocks (c.answer call).1.inventory fun item => count item + call.gives item - c.takes item call := by
  cases orderly with
  | @give item n some =>
    have notNegative := h.notNegative item
    rw [Console.answer, h.give_eq item some]
    refine h.keep ?_ (Int.add_nonneg notNegative (by omega)) ?_
    · simp [Call.gives, takes]
    · intro i other
      simp [Call.gives, takes, Ne.symm other]
  | @take item n some =>
    rcases Int.lt_or_le (count item) n with few | enough
    · have refused := h.take_of_few few
      have none : ∀ i, c.takes i (.takeItem item (.int n)) = 0 := fun i => by simp [takes, refused]
      rw [Console.answer, refused]
      simpa [Call.gives, none] using h
    · have granted := h.take_of_enough enough
      have gone : ∀ i, c.takes i (.takeItem item (.int n)) = if item = i then n else 0 := fun i => by
        simp [takes, granted]
      rw [Console.answer, granted]
      refine h.keep ?_ (Int.sub_nonneg_of_le enough) ?_
      · simp [Call.gives, gone]
      · intro i other
        simp [Call.gives, gone, Ne.symm other]
  | other free =>
    rw [inventory_of_free free]
    simpa [Call.gives_of_free free, takes_of_free free] using h

/-! ## Many calls -/

/-- **What many calls change**, by induction on the calls. -/
theorem after (h : Stocks c.inventory count) {calls : List Call}
    (orderly : ∀ call ∈ calls, call.IsOrderly) :
    Stocks (c.after calls).inventory fun item => count item + given item calls - c.taken item calls := by
  induction calls generalizing c count with
  | nil => simpa [Console.after, given, taken] using h
  | cons call calls ih =>
    have step := h.answer (orderly call List.mem_cons_self)
    have rest := ih step fun later hl => orderly later (List.mem_cons_of_mem call hl)
    have sums : ∀ item, count item + given item (call :: calls) - c.taken item (call :: calls) =
        count item + call.gives item - c.takes item call + given item calls -
          (c.answer call).1.taken item calls := by
      intro item
      simp only [given, taken]
      omega
    simp only [sums]
    exact rest

end Stocks

/-! ## The books -/

/-- The books of a console with so many of each item. -/
structure Books (c : Console) (count : String → Int) : Prop where
  /-- The inventory lists the items of which there are some, and there are never less than none. -/
  stocks : Stocks c.inventory count
  /-- Asked for the number of an item, the console gives it. -/
  counts : ∀ item, (c.answer (.countItem item)).2.2 = .ok (.int (count item))
  /-- Items can always be handed out. -/
  accepts : ∀ item n, 1 ≤ n → (c.answer (.giveItem item (.int n))).2.2 = .ok ()
  /-- Items of which there are enough can be had. -/
  grants : ∀ item n, n ≤ count item → (c.answer (.takeItem item (.int n))).2.2 = .ok true
  /-- Items of which there are too few cannot, and nothing changes. -/
  refuses : ∀ item n, count item < n → c.answer (.takeItem item (.int n)) = (c, "", .ok false)
  /-- A call changes the number of no item but its own. -/
  apart : ∀ call item, call.IsOrderly → call.item? ≠ some item →
    (c.answer call).1.held item = c.held item

theorem Stocks.books (h : Stocks c.inventory count) : Books c count where
  stocks := h
  counts item := congrArg Except.ok (h.held item)
  accepts item n some := by rw [Console.answer, h.give_eq item some]
  grants item n enough := by rw [Console.answer, h.take_of_enough enough]
  refuses item n few := h.take_of_few few
  apart call item orderly other := by
    have unchanged : call.gives item = 0 ∧ c.takes item call = 0 := by
      cases orderly with
      | @give i n some =>
        have other : i ≠ item := fun same => other (congrArg _ same)
        simp [Call.gives, takes, other]
      | @take i n some =>
        have other : i ≠ item := fun same => other (congrArg _ same)
        refine ⟨rfl, ?_⟩
        simp only [takes, if_neg other]
        split <;> rfl
      | other free => exact ⟨Call.gives_of_free free item, takes_of_free free item⟩
    rw [(h.answer orderly).held, h.held, unchanged.1, unchanged.2]
    simp

/-- **The inventory keeps its books.**  At a console that begins with nothing there is of each item,
after any calls, what was handed out less what was taken away. -/
theorem inventory_conserved (fresh : c.inventory = []) {calls : List Call}
    (orderly : ∀ call ∈ calls, call.IsOrderly) :
    Books (c.after calls) fun item => given item calls - c.taken item calls := by
  have none : Stocks c.inventory fun _ => 0 := fresh ▸ Stocks.empty
  have all := none.after orderly
  simp only [Int.zero_add] at all
  exact all.books

/-- Apples are bought and eaten; there are no pears. -/
def orchard : List Call :=
  [.giveItem "apple" (.int 3), .takeItem "pear" (.int 1), .takeItem "apple" (.int 2),
    .giveItem "nut" (.int 4), .takeItem "apple" (.int 2), .takeItem "nut" (.int 4)]

/-- One apple is left, and it alone is listed. -/
theorem orchard_conserved :
    (∀ call ∈ orchard, call.IsOrderly) ∧
      Books (after {} orchard) (fun item => given item orchard - taken {} item orchard) ∧
      (after {} orchard).inventory = [("apple", .int 1)] := by
  have orderly : ∀ call ∈ orchard, call.IsOrderly := by
    simp only [orchard, List.forall_mem_cons]
    refine ⟨.give _ ?_, .take _ ?_, .take _ ?_, .give _ ?_, .take _ ?_, .take _ ?_, List.forall_mem_nil _⟩
    all_goals decide
  exact ⟨orderly, inventory_conserved rfl orderly, by decide +kernel⟩

end Console

end Questline
