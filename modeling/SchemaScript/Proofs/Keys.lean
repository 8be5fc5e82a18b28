import Mathlib.Data.List.Basic
import Mathlib.Tactic.Ring
import SchemaScript.Log.Context

/-!
Keys of mappings. Values are the same key if they have the same form: numbers are compared by value,
so a whole real number has the form of that whole number. Setting entries of a mapping is known by
what is found under each key afterwards.
-/

namespace SchemaScript

namespace Number.Binary64

/-- The mantissa has 53 bits unless the exponent is the least. What is not a number is equal to
nothing. -/
def IsNormal : Binary64 → Prop
  | .finite _ mantissa exponent =>
    mantissa < 2 ^ 53 ∧ leastExponent ≤ exponent ∧ (2 ^ 52 ≤ mantissa ∨ exponent = leastExponent)
  | .infinite _ => True
  | .nan => False

theorem scaled_one (mantissa : Nat) (exponent : Int) :
    scaled mantissa 1 (-exponent) = (mantissa * 2 ^ exponent.toNat, 2 ^ (-exponent).toNat) := by
  unfold scaled
  split
  · next below =>
    have none : exponent.toNat = 0 := by omega
    simp [none]
  · next above =>
    have none : (-exponent).toNat = 0 := by omega
    simp [none]

theorem integral?_finite {negative : Bool} {mantissa : Nat} {exponent n : Int}
    (equal : (finite negative mantissa exponent).integral? = some n) :
    mantissa * 2 ^ exponent.toNat = n.natAbs * 2 ^ (-exponent).toNat ∧
      if negative then n ≤ 0 else 0 ≤ n := by
  simp only [integral?, quotient?, scaled_one] at equal
  generalize mantissa * 2 ^ exponent.toNat = num at *
  have positive : 0 < 2 ^ (-exponent).toNat := Nat.two_pow_pos _
  generalize 2 ^ (-exponent).toNat = den at *
  have exact {m : Int} (quotient : (if m % den = 0 then some (m / den) else none) = some n) :
      n * den = m := by
    split_ifs at quotient with whole
    cases quotient
    exact Int.ediv_mul_cancel (Int.dvd_of_emod_eq_zero whole)
  have positive : (0 : Int) < den := by exact_mod_cast positive
  have magnitude (m : Int) (product : n * den = m) : m.natAbs = n.natAbs * den := by
    rw [← product, Int.natAbs_mul, Int.natAbs_natCast]
  cases negative with
  | true =>
    have product : n * den = -(num : Int) := exact equal
    refine ⟨by simpa using magnitude _ product, ?_⟩
    by_contra above
    have := Int.mul_pos (not_le.1 above) positive
    omega
  | false =>
    have product : n * den = num := exact equal
    refine ⟨by simpa using magnitude _ product, ?_⟩
    by_contra below
    have := Int.mul_neg_of_neg_of_pos (not_le.1 below) positive
    omega

/-- Of normal numbers that are the same whole number, none has a greater exponent. -/
theorem exponent_le_of_magnitude {m m' k : Nat} {e e' : Int} (fits : m < 2 ^ 53)
    (least : leastExponent ≤ e) (full' : 2 ^ 52 ≤ m' ∨ e' = leastExponent)
    (equal : m * 2 ^ e.toNat = k * 2 ^ (-e).toNat)
    (equal' : m' * 2 ^ e'.toNat = k * 2 ^ (-e').toNat) : e' ≤ e := by
  by_contra above
  -- The mantissa under a greater exponent is full, so the other one would be at least twice a full
  -- one, which does not fit.
  have cross : m * 2 ^ (e.toNat + (-e').toNat) = m' * 2 ^ (e'.toNat + (-e).toNat) := by
    rw [pow_add, pow_add, ← mul_assoc, ← mul_assoc, equal, equal']
    ring
  have more : e'.toNat + (-e).toNat = (e.toNat + (-e').toNat) + (e' - e - 1).toNat + 1 := by omega
  have full : 2 ^ 52 ≤ m' := full'.resolve_right (by omega)
  rw [more, pow_succ, pow_add _ (e.toNat + (-e').toNat)] at cross
  have twice : m = m' * 2 ^ (e' - e - 1).toNat * 2 := by
    refine Nat.eq_of_mul_eq_mul_right (Nat.two_pow_pos (e.toNat + (-e').toNat)) ?_
    rw [cross]
    ring
  have one : 1 ≤ 2 ^ (e' - e - 1).toNat := Nat.one_le_two_pow
  have := Nat.mul_le_mul full one
  omega

theorem sameValue_of_integral? {x y : Binary64} {n : Int} (normal : x.IsNormal)
    (normal' : y.IsNormal) (equal : x.integral? = some n) (equal' : y.integral? = some n) :
    x.sameValue y = true := by
  cases x with
  | infinite => cases equal
  | nan => cases equal
  | finite negative m e =>
    cases y with
    | infinite => cases equal'
    | nan => cases equal'
    | finite negative' m' e' =>
      obtain ⟨fits, least, full⟩ := normal
      obtain ⟨fits', least', full'⟩ := normal'
      obtain ⟨magnitude, sign⟩ := integral?_finite equal
      obtain ⟨magnitude', sign'⟩ := integral?_finite equal'
      obtain rfl : e = e' := le_antisymm
        (exponent_le_of_magnitude fits' least' full magnitude' magnitude)
        (exponent_le_of_magnitude fits least full' magnitude magnitude')
      obtain rfl : m = m' := Nat.eq_of_mul_eq_mul_right (Nat.two_pow_pos e.toNat)
        (magnitude.trans magnitude'.symm)
      by_cases nought : n = 0
      · have none : m = 0 := by simpa [nought] using magnitude
        simp [sameValue, none]
      · have signs : negative = negative' := by
          cases negative with
          | true =>
            have below : n ≤ 0 := sign
            cases negative' with
            | true => rfl
            | false => exact absurd (le_antisymm below sign') nought
          | false =>
            have above : 0 ≤ n := sign
            cases negative' with
            | true => exact absurd (le_antisymm sign' above) nought
            | false => rfl
        simp [sameValue, signs]

theorem integral?_nought (negative : Bool) (exponent : Int) :
    (finite negative 0 exponent).integral? = some 0 := by
  simp [integral?, quotient?, scaled_one]

theorem eq_or_nought_of_sameValue {x y : Binary64} (same : x.sameValue y = true) :
    x = y ∨ x.integral? = some 0 ∧ y.integral? = some 0 := by
  cases x with
  | finite negative m e =>
    cases y with
    | finite negative' m' e' =>
      simp only [sameValue, Bool.or_eq_true, Bool.and_eq_true, decide_eq_true_eq] at same
      rcases same with ⟨rfl, rfl⟩ | ⟨⟨rfl, rfl⟩, rfl⟩
      · exact .inr ⟨integral?_nought negative e, integral?_nought negative' e'⟩
      · exact .inl rfl
    | _ => cases same
  | infinite negative =>
    cases y with
    | infinite negative' => exact .inl (by simpa [sameValue] using same)
    | _ => cases same
  | nan =>
    cases y with
    | nan => exact .inl rfl
    | _ => cases same

end Number.Binary64

namespace Value

open Number

/-- What makes two values the same key. -/
inductive KeyForm
  | null
  | number (n : Int)
  | real (x : Binary64)
  | text (text : String)
  | brokenText (codes : List Nat)
  | bytes (bytes : List UInt8)
  | date (date : Date)
  | moment (knowsOffset : Bool) (seconds : Int) (microsecond : Nat)
  | collection
deriving DecidableEq

def keyForm : Value → KeyForm
  | .null => .null
  | .boolean value => .number (if value then 1 else 0)
  | .integer value => .number value
  | .real value =>
    match value.integral? with
    | some n => .number n
    | none => .real value
  | .text value => .text value
  | .brokenText codes => .brokenText codes
  | .bytes value => .bytes value
  | .date value => .date value
  | .moment value => .moment value.offset.isSome value.seconds value.microsecond
  | _ => .collection

/-- Values that are keys of mappings. Collections are none, nor is what is equal to nothing. -/
def IsKey : Value → Prop
  | .real value => value.IsNormal
  | .list _ => False
  | .pair _ _ => False
  | .set _ => False
  | .mapping _ => False
  | _ => True

theorem sameValue_iff {x y : Binary64} (normal : x.IsNormal) (normal' : y.IsNormal) :
    x.sameValue y = true ↔ keyForm (.real x) = keyForm (.real y) := by
  constructor
  · intro same
    rcases Binary64.eq_or_nought_of_sameValue same with rfl | ⟨nought, nought'⟩
    · rfl
    · simp only [keyForm, nought, nought']
  · intro same
    cases equal : x.integral? with
    | some n =>
      cases equal' : y.integral? with
      | some m =>
        obtain rfl : n = m := by simpa [keyForm, equal, equal'] using same
        exact Binary64.sameValue_of_integral? normal normal' equal equal'
      | none => simp [keyForm, equal, equal'] at same
    | none =>
      cases equal' : y.integral? with
      | some m => simp [keyForm, equal, equal'] at same
      | none =>
        obtain rfl : x = y := by simpa [keyForm, equal, equal'] using same
        cases x <;> simp_all [Binary64.sameValue, Binary64.IsNormal]

/-- A real number is the same key as a whole one that it equals, and as no other value. -/
theorem sameKey_real_iff {x : Binary64} {b : Value} (other : ∀ y, b ≠ .real y) :
    (Value.real x).sameKey b = true ↔ keyForm (.real x) = keyForm b := by
  cases equal : x.integral? <;> cases b <;>
    simp_all [sameKey, keyForm, integer?]

theorem sameKey_iff_real {a : Value} {y : Binary64} (other : ∀ x, a ≠ .real x) :
    a.sameKey (.real y) = true ↔ keyForm a = keyForm (.real y) := by
  have turned : a.sameKey (.real y) = (Value.real y).sameKey a := by
    cases a with
    | real x => exact absurd rfl (other x)
    | _ => rfl
  rw [turned, sameKey_real_iff other, eq_comm]

theorem sameKey_iff {a b : Value} (key : a.IsKey) (key' : b.IsKey) :
    a.sameKey b = true ↔ a.keyForm = b.keyForm := by
  cases a <;> cases b <;> first
    | exact key.elim
    | exact key'.elim
    | exact sameValue_iff key key'
    | exact sameKey_real_iff nofun
    | exact sameKey_iff_real nofun
    | simp [sameKey, keyForm, integer?, Moment.same, and_assoc]

theorem sameKey_text_iff {key : Value} {name : String} :
    key.sameKey (.text name) = true ↔ key = .text name := by
  cases key with
  | real x => cases equal : x.integral? <;> simp [sameKey, integer?, equal]
  | _ => simp [sameKey, integer?]

theorem text_sameKey_iff {key : Value} {name : String} :
    (Value.text name).sameKey key = true ↔ key = .text name := by
  cases key with
  | text other => exact (beq_iff_eq.trans eq_comm).trans (by simp)
  | real x => cases equal : x.integral? <;> simp [sameKey, integer?, equal]
  | _ => simp [sameKey, integer?]

@[simp] theorem isKey_text (name : String) : IsKey (.text name) := trivial

def heldAt? (entries : List (Value × Value)) (key : Value) : Option Value :=
  (entries.find? fun entry => entry.1.sameKey key).map (·.2)

structure IsMapping (entries : List (Value × Value)) : Prop where
  keys : ∀ entry ∈ entries, entry.1.IsKey
  once : entries.Pairwise fun first second => first.1.sameKey second.1 = false

theorem heldAt?_nil (key : Value) : heldAt? [] key = none := rfl

theorem heldAt?_cons (entry : Value × Value) (rest : List (Value × Value)) (key : Value) :
    heldAt? (entry :: rest) key =
      if entry.1.sameKey key then some entry.2 else heldAt? rest key := by
  unfold heldAt?
  rw [List.find?_cons]
  cases entry.1.sameKey key <;> rfl

theorem heldAt?_append (entries more : List (Value × Value)) (key : Value) :
    heldAt? (entries ++ more) key = (heldAt? entries key).or (heldAt? more key) := by
  simp [heldAt?, List.find?_append, Option.map_or]

theorem field?_eq_heldAt? (entries : List (Value × Value)) (name : String) :
    field? entries name = heldAt? entries (.text name) := by
  induction entries with
  | nil => rfl
  | cons entry rest ih =>
    obtain ⟨key, value⟩ := entry
    rw [heldAt?_cons, ← ih]
    cases key with
    | text key => simp [field?, sameKey]
    | _ => simp [field?, sameKey_text_iff]

variable {entries changes : List (Value × Value)} {key value probe : Value}

theorem mem_putEntry {entry : Value × Value} (member : entry ∈ putEntry entries key value) :
    (∃ before ∈ entries, before.1 = entry.1) ∨ entry.1 = key := by
  induction entries with
  | nil =>
    obtain rfl := List.mem_singleton.1 member
    exact .inr rfl
  | cons first rest ih =>
    unfold putEntry at member
    split at member
    · rcases List.mem_cons.1 member with rfl | member
      · exact .inl ⟨first, List.mem_cons_self, rfl⟩
      · exact .inl ⟨entry, List.mem_cons_of_mem _ member, rfl⟩
    · rcases List.mem_cons.1 member with rfl | member
      · exact .inl ⟨first, List.mem_cons_self, rfl⟩
      · rcases ih member with ⟨before, listed, same⟩ | same
        · exact .inl ⟨before, List.mem_cons_of_mem _ listed, same⟩
        · exact .inr same

theorem heldAt?_putEntry (keys : ∀ entry ∈ entries, entry.1.IsKey) (isKey : key.IsKey)
    (isProbe : probe.IsKey) :
    heldAt? (putEntry entries key value) probe =
      if key.sameKey probe then some value else heldAt? entries probe := by
  induction entries with
  | nil => simp [putEntry, heldAt?_cons, heldAt?_nil]
  | cons first rest ih =>
    have firstKey := keys first List.mem_cons_self
    have ih := ih fun entry member => keys entry (List.mem_cons_of_mem _ member)
    unfold putEntry
    split
    · next same =>
      have forms := (sameKey_iff firstKey isKey).1 same
      rw [heldAt?_cons, heldAt?_cons]
      simp only [sameKey_iff firstKey isProbe, sameKey_iff isKey isProbe, forms]
      split <;> rfl
    · next other =>
      rw [heldAt?_cons, heldAt?_cons, ih]
      simp only [sameKey_iff firstKey isProbe, sameKey_iff isKey isProbe,
        sameKey_iff firstKey isKey] at other ⊢
      split_ifs with here there
      · exact absurd (here.trans there.symm) other
      · rfl
      · rfl
      · rfl

theorem IsMapping.putEntry (mapping : IsMapping entries) (isKey : key.IsKey) :
    IsMapping (putEntry entries key value) := by
  induction entries with
  | nil => exact ⟨by simpa [Value.putEntry] using isKey, by simp [Value.putEntry]⟩
  | cons first rest ih =>
    obtain ⟨keys, once⟩ := mapping
    obtain ⟨apart, once⟩ := List.pairwise_cons.1 once
    have restKeys := fun entry member => keys entry (List.mem_cons_of_mem _ member)
    unfold Value.putEntry
    split
    · exact ⟨List.forall_mem_cons.2 ⟨keys first List.mem_cons_self, restKeys⟩,
        List.pairwise_cons.2 ⟨apart, once⟩⟩
    · next other =>
      obtain ⟨newKeys, newOnce⟩ := ih ⟨restKeys, once⟩
      refine ⟨List.forall_mem_cons.2 ⟨keys first List.mem_cons_self, newKeys⟩,
        List.pairwise_cons.2 ⟨fun entry member => ?_, newOnce⟩⟩
      rcases mem_putEntry member with ⟨before, listed, same⟩ | same
      · exact same ▸ apart before listed
      · exact same ▸ Bool.eq_false_iff.2 other

theorem IsMapping.of_cons {entry : Value × Value} (mapping : IsMapping (entry :: entries)) :
    IsMapping entries :=
  ⟨fun other member => mapping.keys other (List.mem_cons_of_mem _ member), mapping.once.of_cons⟩

theorem IsMapping.heldAt?_of_cons {entry : Value × Value} (mapping : IsMapping (entry :: entries))
    (isProbe : probe.IsKey) (here : entry.1.sameKey probe = true) :
    heldAt? entries probe = none := by
  simp only [heldAt?, Option.map_eq_none_iff, List.find?_eq_none]
  intro other member same
  have isKey := mapping.keys entry List.mem_cons_self
  have isOther := mapping.keys other (List.mem_cons_of_mem _ member)
  rw [sameKey_iff isKey isProbe] at here
  rw [sameKey_iff isOther isProbe] at same
  have apart := (List.pairwise_cons.1 mapping.once).1 other member
  rw [(sameKey_iff isKey isOther).2 (here.trans same.symm)] at apart
  cases apart

theorem IsMapping.append_singleton (mapping : IsMapping entries) (isKey : key.IsKey)
    (absent : heldAt? entries key = none) : IsMapping (entries ++ [(key, value)]) where
  keys entry member := by
    rcases List.mem_append.1 member with member | member
    · exact mapping.keys entry member
    · exact List.mem_singleton.1 member ▸ isKey
  once := by
    refine List.pairwise_append.2 ⟨mapping.once, List.pairwise_singleton _ _, ?_⟩
    intro entry member other last
    obtain rfl := List.mem_singleton.1 last
    have missed := List.find?_eq_none.1 (Option.map_eq_none_iff.1 absent)
    exact Bool.eq_false_iff.2 (missed entry member)

theorem IsMapping.heldAt?_eq_some_iff (mapping : IsMapping entries) (isProbe : probe.IsKey) :
    heldAt? entries probe = some value ↔
      ∃ entry ∈ entries, entry.1.sameKey probe = true ∧ entry.2 = value := by
  induction entries with
  | nil => simp [heldAt?_nil]
  | cons first rest ih =>
    have ih := ih mapping.of_cons
    rw [heldAt?_cons]
    split
    · next here =>
      constructor
      · intro found
        exact ⟨first, List.mem_cons_self, here, Option.some.inj found⟩
      · rintro ⟨entry, member, same, rfl⟩
        rcases List.mem_cons.1 member with rfl | later
        · rfl
        · have nothing := mapping.heldAt?_of_cons isProbe here
          cases nothing.symm.trans (ih.2 ⟨entry, later, same, rfl⟩)
    · next other =>
      simp [ih, or_and_right, exists_or, other]

end Value

namespace Log

open Value

variable {entries changes : List (Value × Value)}

theorem isMapping_updated (mapping : IsMapping entries) (mapping' : IsMapping changes) :
    IsMapping (updated entries changes) := by
  induction changes generalizing entries with
  | nil => exact mapping
  | cons change rest ih =>
    exact ih (mapping.putEntry (mapping'.keys change List.mem_cons_self)) mapping'.of_cons

theorem heldAt?_updated (mapping : IsMapping entries) (mapping' : IsMapping changes) {key : Value}
    (isKey : key.IsKey) :
    heldAt? (updated entries changes) key = (heldAt? changes key).or (heldAt? entries key) := by
  induction changes generalizing entries with
  | nil => rfl
  | cons change rest ih =>
    have isChange := mapping'.keys change List.mem_cons_self
    change heldAt? (updated (putEntry entries change.1 change.2) rest) key = _
    rw [ih (mapping.putEntry isChange) mapping'.of_cons,
      heldAt?_putEntry mapping.keys isChange isKey, heldAt?_cons]
    split
    · next here => rw [mapping'.heldAt?_of_cons isKey here, Option.none_or, Option.some_or]
    · rfl

end Log

end SchemaScript
