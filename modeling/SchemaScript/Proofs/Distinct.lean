import Mathlib.Data.List.Basic
import SchemaScript.Catalog

/-!
Lists in which a key stands once. Of all elements with one key the first is kept, so the order in
which elements come first is the order of the result. In particular, if a list has what each of
its elements needs in front of it, then so has the list without repeats.
-/

namespace SchemaScript

section Distinct

variable {α κ : Type} [DecidableEq κ] {key : α → κ}

theorem mem_keys_distinctFrom {seen : List κ} {items : List α} {k : κ} :
    k ∈ (distinctFrom key seen items).map key ↔ k ∈ items.map key ∧ k ∉ seen := by
  induction items generalizing seen with
  | nil => simp [distinctFrom]
  | cons a rest ih =>
    by_cases old : key a ∈ seen
    · rw [distinctFrom, if_pos old, ih, List.map_cons, List.mem_cons]
      constructor
      · rintro ⟨later, fresh⟩
        exact ⟨Or.inr later, fresh⟩
      · rintro ⟨rfl | later, fresh⟩
        · exact absurd old fresh
        · exact ⟨later, fresh⟩
    · rw [distinctFrom, if_neg old, List.map_cons, List.mem_cons, ih, List.map_cons,
        List.mem_cons, List.mem_cons, not_or]
      by_cases same : k = key a
      · simp [same, old]
      · simp [same]

theorem distinctFrom_sublist (seen : List κ) (items : List α) :
    (distinctFrom key seen items).Sublist items := by
  induction items generalizing seen with
  | nil => exact List.Sublist.refl _
  | cons a rest ih =>
    by_cases old : key a ∈ seen
    · rw [distinctFrom, if_pos old]
      exact (ih seen).cons a
    · rw [distinctFrom, if_neg old]
      exact (ih (key a :: seen)).cons_cons a

theorem nodup_keys_distinctFrom (seen : List κ) (items : List α) :
    ((distinctFrom key seen items).map key).Nodup := by
  induction items generalizing seen with
  | nil => exact List.nodup_nil
  | cons a rest ih =>
    by_cases old : key a ∈ seen
    · rw [distinctFrom, if_pos old]
      exact ih seen
    · rw [distinctFrom, if_neg old, List.map_cons, List.nodup_cons]
      refine ⟨fun again => ?_, ih (key a :: seen)⟩
      exact (mem_keys_distinctFrom.1 again).2 List.mem_cons_self

theorem distinctFrom_congr {seen other : List κ} {items : List α}
    (same : ∀ a ∈ items, key a ∈ seen ↔ key a ∈ other) :
    distinctFrom key seen items = distinctFrom key other items := by
  induction items generalizing seen other with
  | nil => rfl
  | cons a rest ih =>
    have later : ∀ b ∈ rest, key b ∈ seen ↔ key b ∈ other := fun b hb => same b (.tail _ hb)
    have taken : ∀ b ∈ rest, key b ∈ key a :: seen ↔ key b ∈ key a :: other := by
      intro b hb
      rw [List.mem_cons, List.mem_cons, later b hb]
    simp only [distinctFrom, same a List.mem_cons_self, ih later, ih taken]

theorem distinctFrom_append (seen : List κ) (first second : List α) :
    distinctFrom key seen (first ++ second) =
      distinctFrom key seen first ++
        distinctFrom key (seen ++ (distinctFrom key seen first).map key) second := by
  induction first generalizing seen with
  | nil => simp [distinctFrom]
  | cons a rest ih =>
    by_cases old : key a ∈ seen
    · simp only [List.cons_append, distinctFrom, if_pos old, ih]
    · simp only [List.cons_append, distinctFrom, if_neg old, ih, List.map_cons]
      congr 2
      apply distinctFrom_congr
      intro b _
      simp [or_left_comm]

theorem distinctFrom_eq_self {seen : List κ} {items : List α} (nodup : (items.map key).Nodup)
    (fresh : ∀ a ∈ items, key a ∉ seen) : distinctFrom key seen items = items := by
  induction items generalizing seen with
  | nil => rfl
  | cons a rest ih =>
    rw [List.map_cons, List.nodup_cons] at nodup
    rw [distinctFrom, if_neg (fresh a List.mem_cons_self)]
    congr 1
    apply ih nodup.2
    intro b later old
    rcases List.mem_cons.1 old with same | old
    · exact nodup.1 (same ▸ List.mem_map_of_mem later)
    · exact fresh b (List.mem_cons_of_mem _ later) old

theorem mem_distinctFrom {seen : List κ} {items : List α}
    (distinguished : ∀ a ∈ items, ∀ b ∈ items, key a = key b → a = b) {a : α} :
    a ∈ distinctFrom key seen items ↔ a ∈ items ∧ key a ∉ seen := by
  constructor
  · intro kept
    have fresh := (mem_keys_distinctFrom.1 (List.mem_map_of_mem kept)).2
    exact ⟨(distinctFrom_sublist seen items).subset kept, fresh⟩
  · rintro ⟨given, fresh⟩
    have known : key a ∈ (distinctFrom key seen items).map key :=
      mem_keys_distinctFrom.2 ⟨List.mem_map_of_mem given, fresh⟩
    obtain ⟨b, kept, same⟩ := List.mem_map.1 known
    have stood : b ∈ items := (distinctFrom_sublist seen items).subset kept
    rwa [← distinguished b stood a given same]

theorem mem_distinctBy {items : List α}
    (distinguished : ∀ a ∈ items, ∀ b ∈ items, key a = key b → a = b) {a : α} :
    a ∈ distinctBy key items ↔ a ∈ items := by
  rw [distinctBy, mem_distinctFrom distinguished]
  exact and_iff_left List.not_mem_nil

/-- What stands in front of an element that is kept is what is kept of all that stood in front of
its first occurrence. -/
theorem exists_earlier_of_distinctFrom {seen : List κ} {items before : List α} {a : α}
    (h : before ++ [a] <+: distinctFrom key seen items) :
    ∃ earlier, earlier ++ [a] <+: items ∧ distinctFrom key seen earlier = before := by
  induction items generalizing seen before with
  | nil =>
    rw [distinctFrom, List.prefix_nil] at h
    simp at h
  | cons b rest ih =>
    by_cases old : key b ∈ seen
    · rw [distinctFrom, if_pos old] at h
      obtain ⟨earlier, stands, kept⟩ := ih h
      refine ⟨b :: earlier, (List.prefix_cons_inj b).2 stands, ?_⟩
      rw [distinctFrom, if_pos old, kept]
    · rw [distinctFrom, if_neg old] at h
      cases before with
      | nil =>
        obtain rfl : a = b := by simpa using List.IsPrefix.head h (by simp)
        exact ⟨[], by simp, rfl⟩
      | cons c before =>
        rw [List.cons_append, List.cons_prefix_cons] at h
        obtain ⟨rfl, h⟩ := h
        obtain ⟨earlier, stands, kept⟩ := ih h
        refine ⟨c :: earlier, (List.prefix_cons_inj c).2 stands, ?_⟩
        rw [distinctFrom, if_neg old, kept]

end Distinct

theorem distinctFrom_id_eq_eraseDups {α : Type} [DecidableEq α] (seen items : List α) :
    distinctFrom id seen items = (items.filter fun a => a ∉ seen).eraseDups := by
  induction items generalizing seen with
  | nil => rfl
  | cons a rest ih =>
    by_cases old : a ∈ seen
    · rw [distinctFrom, if_pos (show id a ∈ seen from old), ih, List.filter_cons_of_neg]
      simpa using old
    · rw [distinctFrom, if_neg (show id a ∉ seen from old), ih,
        List.filter_cons_of_pos (by simpa using old), List.eraseDups_cons, List.filter_filter]
      congr 3
      funext b
      by_cases same : b = a <;> simp [same]

theorem distinctBy_id_eq_eraseDups {α : Type} [DecidableEq α] (items : List α) :
    distinctBy id items = items.eraseDups := by
  rw [distinctBy, distinctFrom_id_eq_eraseDups]
  simp

theorem nodup_eraseDups {α : Type} [DecidableEq α] (items : List α) : items.eraseDups.Nodup := by
  have nodup : ((distinctBy id items).map id).Nodup := nodup_keys_distinctFrom [] items
  rwa [List.map_id, distinctBy_id_eq_eraseDups] at nodup

section Preceded

variable {α κ : Type} {needs : α → List α}

/-- In front of every occurrence of an element stands all that the element needs. -/
def Preceded (needs : α → List α) (items : List α) : Prop :=
  ∀ before a, before ++ [a] <+: items → needs a ⊆ before

def Followed (needs : α → List α) (items : List α) : Prop :=
  ∀ a behind, a :: behind <:+ items → needs a ⊆ behind

theorem snoc_prefix_append {first second before : List α} {a : α}
    (h : before ++ [a] <+: first ++ second) :
    before ++ [a] <+: first ∨
      ∃ between, before = first ++ between ∧ between ++ [a] <+: second := by
  rcases List.prefix_or_prefix_of_prefix h (List.prefix_append first second) with inside | past
  · exact Or.inl inside
  · obtain ⟨rest, split⟩ := past
    rcases List.eq_nil_or_concat' rest with rfl | ⟨between, last, rfl⟩
    · rw [List.append_nil] at split
      exact Or.inl (split ▸ List.prefix_refl _)
    · rw [← List.append_assoc] at split
      obtain ⟨rfl, same⟩ := List.append_inj' split rfl
      obtain rfl : last = a := by simpa using same
      rw [List.append_assoc, List.prefix_append_right_inj] at h
      exact Or.inr ⟨between, rfl, h⟩

theorem Followed.nil : Followed needs [] := by
  intro a behind h
  simp at h

theorem Followed.cons {a : α} {items : List α} (met : needs a ⊆ items)
    (followed : Followed needs items) : Followed needs (a :: items) := by
  intro b behind h
  rcases List.suffix_cons_iff.1 h with same | later
  · obtain ⟨rfl, rfl⟩ := List.cons.inj same
    exact met
  · exact followed b behind later

theorem Followed.append {first second : List α} (hf : Followed needs first)
    (hs : Followed needs second) : Followed needs (first ++ second) := by
  induction first with
  | nil => exact hs
  | cons a rest ih =>
    have met : needs a ⊆ rest := hf a rest (List.suffix_refl _)
    have tail : Followed needs rest := fun b behind h =>
      hf b behind (h.trans (List.suffix_cons a rest))
    exact (ih tail).cons (List.Subset.trans met (List.subset_append_left rest second))

theorem Followed.flatMap {β : Type} {chunk : β → List α} {items : List β}
    (followed : ∀ b ∈ items, Followed needs (chunk b)) : Followed needs (items.flatMap chunk) := by
  induction items with
  | nil => exact Followed.nil
  | cons b rest ih =>
    rw [List.flatMap_cons]
    exact (followed b List.mem_cons_self).append
      (ih fun c later => followed c (List.mem_cons_of_mem _ later))

theorem Followed.subset {items : List α} (followed : Followed needs items) {a : α}
    (h : a ∈ items) : needs a ⊆ items := by
  obtain ⟨before, behind, rfl⟩ := List.append_of_mem h
  have later := followed a behind (List.suffix_append before (a :: behind))
  have inside : behind ⊆ before ++ a :: behind :=
    List.Subset.trans (List.subset_cons_self a behind) (List.subset_append_right before _)
  exact List.Subset.trans later inside

theorem Followed.reverse {items : List α} (followed : Followed needs items) :
    Preceded needs items.reverse := by
  intro before a h
  have turned : (a :: before.reverse) <:+ items := by
    rw [← List.reverse_prefix]
    simpa using h
  intro b hb
  simpa using followed a before.reverse turned hb

theorem Preceded.of_free {items : List α} (free : ∀ a ∈ items, needs a = []) :
    Preceded needs items := by
  intro before a h
  rw [free a (h.subset (List.mem_append_right _ List.mem_cons_self))]
  exact List.nil_subset before

theorem Preceded.append {first second : List α} (hf : Preceded needs first)
    (hs : Preceded needs second) : Preceded needs (first ++ second) := by
  intro before a h
  rcases snoc_prefix_append h with inside | ⟨between, rfl, later⟩
  · exact hf before a inside
  · exact List.Subset.trans (hs between a later) (List.subset_append_right first between)

/-- The first occurrence of an element has what the element needs in front of it, and the first
occurrences of that are kept. -/
theorem Preceded.distinctBy [DecidableEq κ] {key : α → κ} {items : List α}
    (distinguished : ∀ a ∈ items, ∀ b ∈ items, key a = key b → a = b)
    (preceded : Preceded needs items) : Preceded needs (distinctBy key items) := by
  intro before a h b needed
  obtain ⟨earlier, stands, rfl⟩ := exists_earlier_of_distinctFrom h
  have inside : ∀ c ∈ earlier, c ∈ items := fun c hc => stands.subset (List.mem_append_left _ hc)
  have apart : ∀ c ∈ earlier, ∀ d ∈ earlier, key c = key d → c = d := fun c hc d hd =>
    distinguished c (inside c hc) d (inside d hd)
  exact (mem_distinctBy apart).2 (preceded earlier a stands needed)

/-- A prefix of chunks ends inside the chunk of one item, behind the chunks of the items in front
of it. -/
theorem exists_chunk_of_prefix {β : Type} {chunk : α → List β} {items : List α}
    {before : List β} {b : β} (h : before ++ [b] <+: items.flatMap chunk) :
    ∃ earlier item inside, earlier ++ [item] <+: items ∧ inside ++ [b] <+: chunk item ∧
      before = earlier.flatMap chunk ++ inside := by
  induction items generalizing before with
  | nil => simp at h
  | cons a rest ih =>
    rw [List.flatMap_cons] at h
    rcases snoc_prefix_append h with inside | ⟨between, rfl, later⟩
    · exact ⟨[], a, before, by simp, inside, rfl⟩
    · obtain ⟨earlier, item, inside, stands, ends, rfl⟩ := ih later
      refine ⟨a :: earlier, item, inside, (List.prefix_cons_inj a).2 stands, ends, ?_⟩
      rw [List.flatMap_cons, List.append_assoc]

end Preceded

end SchemaScript
