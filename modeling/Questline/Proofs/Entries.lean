import Mathlib.Data.List.Basic
import Mathlib.Data.List.Induction
import Mathlib.Data.List.Nodup
import Questline.Entries

/-!
# Entries

Values stored under names keep the names apart: each name has one entry, which holds what was
stored last.  What a name holds therefore does not depend on the order of the entries, and sorting
them by name only puts the names in order.

* `Entries.names_ofPairs`, `Entries.get?_ofPairs`: the entries left by pairs stored one after the
  other.
* `Entries.get?_sorted`: sorted entries hold the same.
* `Entries.pairwise_sorted`: sorted entries are in order.
-/

namespace Questline

namespace Entries

/-! ## Storing -/

section Storing

variable {α : Type} {es : Entries α}

theorem names_put (es : Entries α) (name : String) (a : α) :
    (es.put name a).names = if name ∈ es.names then es.names else es.names ++ [name] := by
  induction es with
  | nil => simp [put, names]
  | cons e es ih =>
    simp only [names] at ih
    by_cases h : e.1 = name
    · simp [put, names, h]
    · by_cases hn : name ∈ List.map Prod.fst es <;> simp [put, names, h, Ne.symm h, ih, hn]

theorem get?_put (es : Entries α) (name n : String) (a : α) :
    (es.put name a).get? n = if name = n then some a else es.get? n := by
  simp only [get?]
  induction es with
  | nil => by_cases h : name = n <;> simp [put, h]
  | cons e es ih =>
    by_cases h : e.1 = name
    · by_cases hn : name = n <;> simp [put, h, hn]
    · by_cases hn : e.1 = n
      · have hne : name ≠ n := fun h' => h (hn.trans h'.symm)
        simp [put, hn, hne, Ne.symm hne]
      · simp [put, h, hn, ih]

theorem has_iff_mem_names {n : String} : es.has n ↔ n ∈ es.names := by
  simp [has, names]

theorem has_put (es : Entries α) (name n : String) (a : α) :
    (es.put name a).has n ↔ n = name ∨ es.has n := by
  rw [has_iff_mem_names, has_iff_mem_names, names_put]
  split
  case isTrue there =>
    constructor
    · exact .inr
    · rintro (rfl | h)
      · exact there
      · exact h
  case isFalse => rw [List.mem_append, List.mem_singleton, or_comm]

theorem has_erase (es : Entries α) (name n : String) :
    (es.erase name).has n ↔ es.has n ∧ n ≠ name := by
  simp only [has, erase, List.any_filter, List.any_eq_true, Bool.and_eq_true, bne_iff_ne, beq_iff_eq]
  constructor
  · rintro ⟨e, he, apart, rfl⟩
    exact ⟨⟨e, he, rfl⟩, apart⟩
  · rintro ⟨⟨e, he, rfl⟩, apart⟩
    exact ⟨e, he, apart, rfl⟩

theorem ofPairs_append (pairs later : List (String × α)) :
    ofPairs (pairs ++ later) = later.foldl (fun es p => es.put p.1 p.2) (ofPairs pairs) := by
  simp [ofPairs]

/-- A name is new only if it did not appear before. -/
theorem eraseDups_concat (names : List String) (name : String) :
    (names ++ [name]).eraseDups = if name ∈ names then names.eraseDups else names.eraseDups ++ [name] := by
  rw [List.eraseDups_append]
  by_cases h : name ∈ names
  · simp [List.removeAll, h]
  · simp [List.removeAll, h, List.eraseDups_cons]

/-- **Each name has one entry, at the place of its first pair.** -/
theorem names_ofPairs (pairs : List (String × α)) :
    (ofPairs pairs).names = (pairs.map (·.1)).eraseDups := by
  induction pairs using List.reverseRecOn with
  | nil => rfl
  | append_singleton pairs p ih =>
    rw [ofPairs_append, List.foldl_cons, List.foldl_nil, names_put, ih, List.map_append,
      List.map_singleton, eraseDups_concat]
    simp only [List.mem_eraseDups]

/-- **An entry holds what the last pair of its name has.** -/
theorem get?_ofPairs (pairs : List (String × α)) (n : String) :
    (ofPairs pairs).get? n = (pairs.filter (·.1 == n)).getLast?.map (·.2) := by
  induction pairs using List.reverseRecOn with
  | nil => rfl
  | append_singleton pairs p ih =>
    rw [ofPairs_append, List.foldl_cons, List.foldl_nil, get?_put, ih, List.filter_append]
    by_cases h : p.1 = n <;> simp [h]

/-- Storing keeps the names apart. -/
theorem nodup_names_put (h : es.names.Nodup) (name : String) (a : α) :
    (es.put name a).names.Nodup := by
  rw [names_put]
  split
  case isTrue => exact h
  case isFalse new =>
    exact List.nodup_append.2 ⟨h, List.nodup_singleton name, fun n hn m hm => by
      rintro rfl
      exact new (List.mem_singleton.1 hm ▸ hn)⟩

theorem nodup_names_ofPairs (pairs : List (String × α)) : (ofPairs pairs).names.Nodup := by
  induction pairs using List.reverseRecOn with
  | nil => exact List.nodup_nil
  | append_singleton pairs p ih =>
    rw [ofPairs_append]
    exact nodup_names_put ih p.1 p.2

theorem put_of_new {name : String} (h : name ∉ es.names) (a : α) :
    es.put name a = es ++ [(name, a)] := by
  induction es with
  | nil => rfl
  | cons e es ih =>
    simp only [names, List.map_cons, List.mem_cons, not_or] at h
    simp [put, Ne.symm h.1, ih h.2]

/-- Pairs of different names are left as they are. -/
theorem ofPairs_of_nodup (h : es.names.Nodup) : ofPairs es = es := by
  induction es using List.reverseRecOn with
  | nil => rfl
  | append_singleton es e ih =>
    simp only [names, List.map_append, List.map_cons, List.map_nil, List.nodup_append] at h
    have new : e.1 ∉ names es := fun known => h.2.2 _ known _ (List.mem_singleton_self _) rfl
    rw [ofPairs_append, ih h.1, List.foldl_cons, List.foldl_nil, put_of_new new]

/-- An entry is found under its name, if the names are kept apart. -/
theorem get?_eq_some_iff (h : es.names.Nodup) {name : String} {a : α} :
    es.get? name = some a ↔ (name, a) ∈ es := by
  induction es with
  | nil => simp [get?]
  | cons e es ih =>
    obtain ⟨n, b⟩ := e
    simp only [names, List.map_cons, List.nodup_cons, List.mem_map, not_exists, not_and] at h
    by_cases eq : n = name
    · subst eq
      have other : (n, a) ∉ es := fun known => h.1 _ known rfl
      simp [get?, other, eq_comm]
    · have ih := ih h.2
      simp only [get?] at ih
      simp [get?, eq, Ne.symm eq, ih]

end Storing

/-! ## Sorting -/

section Sorting

variable {α β : Type} {es fs : Entries α}

theorem insertSorted_perm (e : String × α) (es : Entries α) :
    (insertSorted e es).Perm (e :: es) := by
  induction es with
  | nil => exact .refl _
  | cons f es ih =>
    rw [insertSorted]
    split
    case isTrue => exact .refl _
    case isFalse => exact (ih.cons f).trans (.swap e f es)

/-- **Sorting keeps the entries.** -/
theorem sorted_perm (es : Entries α) : es.sorted.Perm es := by
  induction es with
  | nil => exact .refl _
  | cons e es ih => exact (insertSorted_perm e _).trans (ih.cons e)

theorem nodup_names_sorted (h : es.names.Nodup) : es.sorted.names.Nodup :=
  ((sorted_perm es).map Prod.fst).nodup_iff.2 h

/-- **Sorted entries hold the same.** -/
theorem get?_sorted (h : es.names.Nodup) (name : String) : es.sorted.get? name = es.get? name := by
  refine Option.ext fun a => ?_
  rw [get?_eq_some_iff (nodup_names_sorted h), get?_eq_some_iff h, (sorted_perm es).mem_iff]

theorem pairwise_insertSorted {e : String × α} (new : ∀ f ∈ es, e.1 ≠ f.1)
    (h : es.names.Pairwise (· < ·)) : (insertSorted e es).names.Pairwise (· < ·) := by
  induction es with
  | nil => exact List.pairwise_singleton _ _
  | cons f es ih =>
    have first : f.1 ≠ e.1 := (new f List.mem_cons_self).symm
    simp only [names, List.map_cons, List.pairwise_cons] at h
    rw [insertSorted]
    split
    case isTrue less =>
      simp only [names, List.map_cons, List.pairwise_cons]
      refine ⟨?_, h⟩
      rintro n (_ | ⟨_, hn⟩)
      · exact less
      · exact String.lt_trans less (h.1 n hn)
    case isFalse more =>
      -- Of two different names one lies below the other.
      have less : f.1 < e.1 := by
        refine Classical.not_not.1 fun no => first ?_
        exact String.le_antisymm (String.not_lt.1 more) (String.not_lt.1 no)
      simp only [names, List.map_cons, List.pairwise_cons]
      refine ⟨fun n hn => ?_, ih (fun g hg => new g (.tail f hg)) h.2⟩
      obtain ⟨g, hg, rfl⟩ := List.mem_map.1 hn
      rcases List.mem_cons.1 ((insertSorted_perm e es).mem_iff.1 hg) with rfl | hg
      · exact less
      · exact h.1 g.1 (List.mem_map_of_mem hg)

/-- **Sorted entries are in order.** -/
theorem pairwise_sorted (h : es.names.Nodup) : es.sorted.names.Pairwise (· < ·) := by
  induction es with
  | nil => exact .nil
  | cons e es ih =>
    simp only [names, List.map_cons, List.nodup_cons, List.mem_map, not_exists, not_and] at h
    refine pairwise_insertSorted (fun f hf => ?_) (ih h.2)
    exact fun eq => h.1 f ((sorted_perm es).mem_iff.1 hf) eq.symm

theorem insertSorted_map (g : String × α → String × β) (hg : ∀ e, (g e).1 = e.1)
    (e : String × α) (es : Entries α) :
    insertSorted (g e) (es.map g) = (insertSorted e es).map g := by
  induction es with
  | nil => rfl
  | cons f es ih =>
    simp only [List.map_cons, insertSorted, hg]
    split
    case isTrue => rfl
    case isFalse => rw [ih, List.map_cons]

/-- What is under the names does not matter for their order. -/
theorem sorted_map (g : String × α → String × β) (hg : ∀ e, (g e).1 = e.1) (es : Entries α) :
    sorted (es.map g) = (sorted es).map g := by
  induction es with
  | nil => rfl
  | cons e es ih =>
    change insertSorted (g e) (sorted (es.map g)) = (insertSorted e (sorted es)).map g
    rw [ih, insertSorted_map g hg]

end Sorting

end Entries

end Questline
