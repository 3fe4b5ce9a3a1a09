import Questline.Proofs.Acceptance
import Questline.Proofs.Chains
import Questline.Proofs.Coherence

/-!
# A tutorial on its own

To be played, one tutorial of a catalog is written as a catalog of its own, and that is made a script.
Nothing is lost on the way: a tutorial that was read has a title and a trigger that say something, or a
title that is as empty as its id, and so it is read again as it was.

Its script is one chain.  The dialogues are numbered, each leads to the next one, and the last one leads
nowhere.  If there is a message, the chain is coherent and begins with the first dialogue.

* `Text.display_ne_empty`: what says something is not shown as nothing.
* `Tutorial.ofValue_toValue`: a tutorial that was read and written is read again as it was,
  `Tutorial.catalogOf_catalog`: so are all those of a script.
* `Graph.Tells`: a graph in which messages are told, `Tutorial.graph_toScript`: the graph of one tutorial.
-/

namespace Questline

open Json (Value Fields)

/-! ## Values that are shown -/

theorem intText_ne_empty (i : Int) : intText i ≠ "" := by
  have some : decimalDigits i.natAbs ≠ [] := List.length_pos_iff.1 (length_decimalDigits_pos _)
  intro h
  have none : (intText i).toList = [] := by rw [h]; rfl
  rw [Json.toList_intText, Json.withSign] at none
  split at none
  · cases none
  · exact some none

namespace FloatStyle

theorem positional_ne_nil {ds : List Char} (some : ds ≠ []) (keepsFraction : Bool) (point : Int) :
    positional keepsFraction ds point ≠ [] := by
  unfold positional
  split
  · simp
  · split
    · simp [some]
    · simp

theorem scientific_ne_nil {ds : List Char} (some : ds ≠ []) (point : Int) : scientific ds point ≠ [] := by
  match ds, some with
  | [d], _ => simp [scientific]
  | d :: e :: rest, _ => simp [scientific]

theorem text_ne_empty (x : Binary64) : literal.text x ≠ "" := by
  cases x with
  | nan => decide
  | infinite negative => cases negative <;> decide
  | finite negative r =>
    have some : literal.magnitudeText r ≠ [] := by
      have asJson : literal.magnitudeText r = json.magnitudeText r := rfl
      rcases magnitudeText_json r with laid | laid <;> rw [asJson, laid]
      · exact positional_ne_nil (significant_ne_nil _) _ _
      · exact scientific_ne_nil (significant_ne_nil _) _
    cases negative <;> simp [text, some]

end FloatStyle

/-- **What says something is not shown as nothing.** -/
theorem Text.display_ne_empty {v : Value} (truthy : v.truthy) : Text.display v ≠ "" := by
  cases v with
  | null => cases truthy
  | bool b => cases b <;> simp [display, literal, literalList]
  | int i => simpa [display, literal, literalList] using intText_ne_empty i
  | float x => simpa [display, literal, literalList] using FloatStyle.text_ne_empty x
  | string s => simpa [display, Value.truthy] using truthy
  | array vs => simp [display, literal, literalList]
  | object ms => simp [display, literal, literalList]

/-! ## Tutorials in writing -/

namespace Tutorial

/-- What is sure of a tutorial that is read. -/
structure WellRead (t : Tutorial) : Prop where
  titled : t.title = "" → t.id = ""
  triggered : t.trigger ≠ ""
  delayed : ∀ m ∈ t.messages, ∃ i : Int, 0 ≤ i ∧ m.delay = .int i

variable {t : Tutorial} {key : String} {v : Value}

theorem textOfTruthy_eq_empty {stand : String} (h : textOfTruthy v stand = "") : stand = "" := by
  unfold textOfTruthy at h
  split at h
  case isTrue truthy => exact absurd h (Text.display_ne_empty truthy)
  case isFalse => exact h

/-- A text stands for itself, unless it is empty. -/
theorem textOfTruthy_string {text stand : String} (h : text = "" → stand = "") :
    textOfTruthy (.string text) stand = text := by
  unfold textOfTruthy
  split
  case isTrue => rfl
  case isFalse empty =>
    have empty : text = "" := by simpa [Value.truthy] using empty
    rw [h empty, empty]

theorem delay_of_readMessage {subject : Subject} {m : Message} (h : readMessage subject v = .ok m) :
    ∃ i : Int, 0 ≤ i ∧ m.delay = .int i := by
  unfold readMessage at h
  split at h
  case h_2 => cases h
  case h_1 fields =>
    split at h
    case h_2 => cases h
    case h_1 text _ =>
      obtain ⟨delay, required, h⟩ := bind_eq_ok_iff.1 h
      cases h
      refine ⟨delay, ?_, rfl⟩
      unfold readDelay at required
      split at required
      case h_2 => cases required
      case h_1 i _ =>
        split at required
        · cases required
        case isFalse notNegative => cases required; exact Int.not_lt.1 notNegative

/-- What is read from a list comes from an item of it. -/
theorem exists_of_mem_readEach {α : Type} {read : Subject → Value → Except Fault α} {list : Subject}
    {index : Nat} {vs : List Value} {as : List α} (h : readEach read list index vs = .ok as) :
    ∀ a ∈ as, ∃ subject v, read subject v = .ok a := by
  induction vs generalizing index as with
  | nil => cases h; simp
  | cons v vs ih =>
    obtain ⟨a, ha, h⟩ := bind_eq_ok_iff.1 h
    obtain ⟨rest, hrest, h⟩ := bind_eq_ok_iff.1 h
    cases h
    intro b hb
    rcases List.mem_cons.1 hb with rfl | hb
    · exact ⟨_, v, ha⟩
    · exact ih hrest b hb

theorem wellRead_of_ofValue (h : ofValue key v = .ok t) : t.WellRead := by
  obtain ⟨fields, -, h⟩ := bind_eq_ok_iff.1 h
  obtain ⟨raw, -, h⟩ := bind_eq_ok_iff.1 h
  obtain ⟨messages, hmessages, h⟩ := bind_eq_ok_iff.1 h
  cases h
  refine ⟨textOfTruthy_eq_empty, fun empty => ?_, fun m hm => ?_⟩
  · exact absurd (textOfTruthy_eq_empty empty) (by decide)
  · obtain ⟨subject, v, hv⟩ := exists_of_mem_readEach hmessages m hm
    exact delay_of_readMessage hv

theorem wellRead_of_mem {fields : Fields} {ts : List Tutorial} (h : readAll fields = .ok ts) :
    ∀ t ∈ ts, t.WellRead := by
  induction fields generalizing ts with
  | nil => cases h; simp
  | cons field fields ih =>
    obtain ⟨t, ht, h⟩ := bind_eq_ok_iff.1 h
    obtain ⟨rest, hrest, h⟩ := bind_eq_ok_iff.1 h
    cases h
    intro u hu
    rcases List.mem_cons.1 hu with rfl | hu
    · exact wellRead_of_ofValue ht
    · exact ih hrest u hu

theorem readEach_toValue {list : Subject} {index : Nat} {ms : List Message}
    (delayed : ∀ m ∈ ms, ∃ i : Int, 0 ≤ i ∧ m.delay = .int i) :
    readEach readMessage list index (ms.map Message.toValue) = .ok ms := by
  induction ms generalizing index with
  | nil => rfl
  | cons m ms ih =>
    obtain ⟨text, delay⟩ := m
    obtain ⟨i, notNegative, rfl⟩ := delayed ⟨text, delay⟩ List.mem_cons_self
    have delay : readDelay (.part (.item list index) "delay") (.int i) = .ok i := by
      rw [readDelay, if_neg (Int.not_lt.2 notNegative)]
    have first : readMessage (.item list index) (Message.toValue ⟨text, .int i⟩) = .ok ⟨text, .int i⟩ := by
      change (readDelay _ (.int i) >>= _) = _
      rw [delay]
      rfl
    rw [List.map_cons, readEach, first, ok_bind, ih fun m hm => delayed m (List.mem_cons_of_mem _ hm)]
    rfl

/-- **What was read is read again as it was.** -/
theorem ofValue_toValue (h : t.WellRead) (key : String) : ofValue key t.toValue = .ok t := by
  obtain ⟨id, title, trigger, once, messages⟩ := t
  obtain ⟨titled, triggered, delayed⟩ := h
  have said : textOfTruthy (.string title) id = title := textOfTruthy_string titled
  have occasion : textOfTruthy (.string trigger) defaultTrigger = trigger :=
    textOfTruthy_string fun empty => absurd empty triggered
  have shown : (Value.bool once != .bool false) = once := by cases once <;> rfl
  change (readEach readMessage _ 0 (messages.map Message.toValue) >>= fun messages =>
    Except.ok (⟨id, textOfTruthy (.string title) id, textOfTruthy (.string trigger) defaultTrigger,
      Value.bool once != .bool false, messages⟩ : Tutorial)) = _
  rw [readEach_toValue delayed, ok_bind, said, occasion, shown]

theorem readAll_toValue {ts : List Tutorial} (h : ∀ t ∈ ts, t.WellRead) :
    readAll (ts.map fun t => (t.id, t.toValue)) = .ok ts := by
  induction ts with
  | nil => rfl
  | cons t ts ih =>
    rw [List.map_cons, readAll, ofValue_toValue (h t List.mem_cons_self), ok_bind,
      ih fun u hu => h u (List.mem_cons_of_mem t hu)]
    rfl

/-- A catalog of one tutorial. -/
theorem catalogOf_toValue {catalog : Fields} {ts : List Tutorial} (reads : catalogOf catalog = .ok ts)
    (mem : t ∈ ts) : catalogOf [("tutorials", .object [(t.id, t.toValue)])] = .ok [t] := by
  obtain ⟨fields, -, readsAll⟩ := bind_eq_ok_iff.1 reads
  have single : ∀ u ∈ [t], u.WellRead := fun u hu => List.mem_singleton.1 hu ▸ wellRead_of_mem readsAll t mem
  exact readAll_toValue single

/-- **The catalog of a script is read** as the tutorials of the script. -/
theorem catalogOf_catalog {s : TutorialScript} (h : ∀ t ∈ s.tutorials, t.WellRead) :
    catalogOf s.catalog = .ok s.tutorials :=
  readAll_toValue h

/-! ## One chain -/

variable {number i : Nat} {ms : List Message} {n : Node} {c : Connection} {id : String}

theorem toScript_single (id : String) (t : Tutorial) :
    (toScript id [t]).script = ⟨id, messageNodes 0 t.messages, messageLinks 0 t.messages⟩ := by
  simp [toScript, chains]

theorem mem_messageNodes :
    n ∈ messageNodes number ms ↔ ∃ i m, ms[i]? = some m ∧ n = messageNode (number + i) m := by
  induction ms generalizing number with
  | nil => simp [messageNodes]
  | cons m ms ih =>
    rw [messageNodes, List.mem_cons, ih]
    constructor
    · rintro (rfl | ⟨i, m', hm, rfl⟩)
      · exact ⟨0, m, rfl, rfl⟩
      · exact ⟨i + 1, m', hm, by rw [Nat.add_assoc, Nat.add_comm 1]⟩
    · rintro ⟨i, m', hm, rfl⟩
      cases i with
      | zero => cases hm; exact .inl rfl
      | succ i => exact .inr ⟨i, m', hm, by rw [Nat.add_assoc, Nat.add_comm 1]⟩

theorem mem_messageLinks :
    c ∈ messageLinks number ms ↔
      ∃ i, i + 1 < ms.length ∧ c = ⟨natText (number + i), 0, natText (number + (i + 1))⟩ := by
  induction ms generalizing number with
  | nil => simp [messageLinks]
  | cons m ms ih =>
    cases ms with
    | nil => simp [messageLinks]
    | cons m' ms =>
      rw [messageLinks, List.mem_cons, ih]
      simp only [List.length_cons]
      have shift (i : Nat) : number + 1 + i = number + (i + 1) := by omega
      constructor
      · rintro (rfl | ⟨i, hi, rfl⟩)
        · exact ⟨0, by omega, rfl⟩
        · exact ⟨i + 1, by omega, by rw [shift, shift]⟩
      · rintro ⟨i, hi, rfl⟩
        cases i with
        | zero => exact .inl rfl
        | succ i => exact .inr ⟨i, by omega, by rw [shift, shift]⟩

/-- The nodes of a chain have different ids. -/
theorem distinct_messageNodes (number : Nat) (ms : List Message) :
    (messageNodes number ms).Pairwise fun n m => n.id ≠ m.id := by
  have nodup : ((messageNodes number ms).map (·.id)).Nodup := by
    rw [ids_messageNodes]
    exact List.Nodup.map natText_injective (List.nodup_range' ..)
  exact List.pairwise_map.1 nodup

/-- The connections of a chain leave different nodes. -/
theorem apart_messageLinks (number : Nat) (ms : List Message) :
    (messageLinks number ms).Pairwise fun c d => ¬c.Parallel d := by
  have nodup : ((messageLinks number ms).map (·.source)).Nodup := by
    have names := TutorialScript.nodup_names_consecutive (List.pairwise_map.2 (distinct_messageNodes number ms))
    rw [← messageLinks_consecutive, Entries.names, List.map_map] at names
    exact names
  exact (List.pairwise_map.1 nodup).imp fun other parallel => other parallel.1

variable {m : Message}

/-- Only the first dialogue of a chain is an entry. -/
theorem isEntry_iff_first :
    Script.IsEntry ⟨id, messageNodes 0 (m :: ms), messageLinks 0 (m :: ms)⟩ n ↔ n = messageNode 0 m := by
  constructor
  · rintro ⟨mem, -, free⟩
    obtain ⟨i, m', hm, rfl⟩ := mem_messageNodes.1 mem
    cases i with
    | zero => cases hm; rfl
    | succ i =>
      have short : i + 1 < (m :: ms).length := (List.getElem?_eq_some_iff.1 hm).1
      have link : ⟨natText (0 + i), 0, natText (0 + (i + 1))⟩ ∈ messageLinks 0 (m :: ms) :=
        mem_messageLinks.2 ⟨i, short, rfl⟩
      exact absurd rfl (free _ link)
  · rintro rfl
    refine ⟨List.mem_cons_self, rfl, fun c hc same => ?_⟩
    obtain ⟨i, -, rfl⟩ := mem_messageLinks.1 hc
    have zero := natText_injective same
    omega

/-- **A chain is coherent**, if there is a message. -/
theorem coherent_messages (id : String) (m : Message) (ms : List Message) :
    Script.Coherent ⟨id, messageNodes 0 (m :: ms), messageLinks 0 (m :: ms)⟩ := by
  refine ⟨distinct_messageNodes 0 _, fun c hc => ?_, apart_messageLinks 0 _, messageNode 0 m,
    isEntry_iff_first.2 rfl, fun n hn => isEntry_iff_first.1 hn⟩
  obtain ⟨i, short, rfl⟩ := mem_messageLinks.1 hc
  have source := List.getElem?_eq_getElem (Nat.lt_of_succ_lt short)
  have target := List.getElem?_eq_getElem short
  exact ⟨⟨_, mem_messageNodes.2 ⟨i, _, source, rfl⟩, rfl, Int.le_refl 0, Int.one_pos⟩,
    _, mem_messageNodes.2 ⟨i + 1, _, target, rfl⟩, rfl⟩

end Tutorial

/-- **A graph in which messages are told**: under each number there is the dialogue of the message, and it
leads to that of the next one. -/
structure Graph.Tells (g : Graph) (ms : List Message) : Prop where
  node : ∀ i, g.node? (natText i) = ms[i]?.map (Tutorial.messageNode i)
  next : ∀ i, g.follow? (natText i) Session.firstOutput = ms[i + 1]?.map (Tutorial.messageNode (i + 1))

/-- The message with which a rest of them begins, and what comes behind it. -/
theorem Graph.Tells.of_drop {g : Graph} {all rest : List Message} {m : Message} {i : Nat} (h : g.Tells all)
    (here : all.drop i = m :: rest) :
    g.node? (natText i) = some (Tutorial.messageNode i m) ∧
      g.follow? (natText i) Session.firstOutput = rest.head?.map (Tutorial.messageNode (i + 1)) := by
  have first : all[i]? = some m := by rw [← List.head?_drop, here, List.head?_cons]
  have behind : all[i + 1]? = rest.head? := by rw [← List.head?_drop, ← List.tail_drop, here, List.tail_cons]
  constructor
  · rw [h.node, first, Option.map_some]
  · rw [h.next, behind]

namespace Tutorial

/-- The graph of a chain tells the messages. -/
theorem tells_of_coherent {g : Graph} (coherent : g.script.Coherent)
    (nodes : g.script.nodes = messageNodes 0 ms) (links : g.script.connections = messageLinks 0 ms) :
    g.Tells ms := by
  constructor
  · intro i
    ext n
    rw [Graph.node?, Graph.node?_eq_some_iff coherent.distinct, nodes, mem_messageNodes]
    constructor
    · rintro ⟨⟨j, m, hm, rfl⟩, same⟩
      have same : 0 + j = i := natText_injective same
      rw [← same, Nat.zero_add, hm]
      rfl
    · intro h
      obtain ⟨m, hm, rfl⟩ := Option.map_eq_some_iff.1 h
      exact ⟨⟨i, m, hm, by rw [Nat.zero_add]⟩, rfl⟩
  · intro i
    ext n
    rw [Graph.follow?_eq_some_iff coherent, nodes, links]
    constructor
    · rintro ⟨c, hc, source, -, mem, target⟩
      obtain ⟨j, -, rfl⟩ := mem_messageLinks.1 hc
      obtain ⟨k, m, hm, rfl⟩ := mem_messageNodes.1 mem
      have source : 0 + j = i := natText_injective source
      have target : 0 + k = 0 + (j + 1) := natText_injective target
      have number : i + 1 = k := by omega
      rw [number, hm, Nat.zero_add]
      rfl
    · intro h
      obtain ⟨m, hm, rfl⟩ := Option.map_eq_some_iff.1 h
      have short : i + 1 < ms.length := (List.getElem?_eq_some_iff.1 hm).1
      refine ⟨⟨natText i, 0, natText (i + 1)⟩, mem_messageLinks.2 ⟨i, short, ?_⟩, rfl, rfl,
        mem_messageNodes.2 ⟨i + 1, m, hm, ?_⟩, rfl⟩
      · rw [Nat.zero_add, Nat.zero_add]
      · rw [Nat.zero_add]

/-- **The graph of one tutorial** begins with its first message and tells all of them. -/
theorem graph_toScript (id : String) {t : Tutorial} (messages : t.messages = m :: ms) :
    Graph.ofScript (toScript id [t]).script = .ok ⟨(toScript id [t]).script, messageNode 0 m⟩ ∧
      Graph.Tells ⟨(toScript id [t]).script, messageNode 0 m⟩ t.messages := by
  rw [toScript_single, messages]
  have coherent := coherent_messages id m ms
  exact ⟨Graph.ofScript_eq_ok_iff_coherent.2 ⟨coherent, rfl, isEntry_iff_first.2 rfl⟩,
    tells_of_coherent coherent rfl rfl⟩

/-- A tutorial without messages has no entry. -/
theorem graph_toScript_nil (id : String) {t : Tutorial} (silent : t.messages = []) :
    Graph.ofScript (toScript id [t]).script = .error (.data (.ambiguousEntry id [])) := by
  rw [toScript_single, silent]
  rfl

/-- The script of one tutorial is that of the first one of its id. -/
theorem singleOf_eq {catalog : Fields} {ts : List Tutorial} (reads : catalogOf catalog = .ok ts) (id : String) :
    singleOf catalog id = match ts.find? (·.id == id) with
      | some t => .ok (toScript t.id [t]).script
      | none => .error (.noSuchTutorial id) := by
  rw [singleOf, reads, ok_bind, single?]
  cases ts.find? (·.id == id) <;> rfl

end Tutorial

end Questline
