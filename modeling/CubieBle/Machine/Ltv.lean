import Mathlib.Data.List.Basic
import Mathlib.Data.UInt

/-! # Elements of length, type and value

Each element starts with its length, which counts the type and the value. The walk over the
elements ends at the first length that is zero or goes beyond the data.
-/

namespace Machine

structure Ltv where
  type : UInt8
  value : List UInt8
deriving DecidableEq

/-- The value leaves room for the type in the length. -/
def Ltv.Fits (element : Ltv) : Prop := element.value.length ≤ 254

def Ltv.bytes (element : Ltv) : List UInt8 :=
  UInt8.ofNat (element.value.length + 1) :: element.type :: element.value

/-- The first element and what follows it. -/
def splitLtv : List UInt8 → Option (Ltv × List UInt8)
  | len :: type :: data =>
      if len = 0 ∨ data.length + 1 < len.toNat then none
      else some ({ type := type, value := data.take (len.toNat - 1) }, data.drop (len.toNat - 1))
  | _ => none

/-- The elements, each with what follows it. -/
def walkLtv : Nat → List UInt8 → List (Ltv × List UInt8)
  | 0, _ => []
  | fuel + 1, data =>
      match splitLtv data with
      | some (element, rest) => (element, rest) :: walkLtv fuel rest
      | none => []

def ltvs (data : List UInt8) : List Ltv := (walkLtv data.length data).map Prod.fst

/-! ## Walks -/

section Walk

variable {data rest : List UInt8} {element : Ltv}

theorem splitLtv_bytes (hfits : element.Fits) (rest : List UInt8) :
    splitLtv (element.bytes ++ rest) = some (element, rest) := by
  have hlen : (UInt8.ofNat (element.value.length + 1)).toNat = element.value.length + 1 :=
    Nat.mod_eq_of_lt (Nat.lt_succ_of_le (Nat.succ_le_succ hfits))
  have hne : UInt8.ofNat (element.value.length + 1) ≠ 0 := by
    intro hzero
    rw [hzero] at hlen
    exact absurd hlen (Nat.succ_ne_zero _).symm
  have hroom : ¬(element.value ++ rest).length + 1 < element.value.length + 1 := by
    rw [List.length_append]
    omega
  rw [Ltv.bytes, List.cons_append, List.cons_append, splitLtv, hlen,
    if_neg (not_or.mpr ⟨hne, hroom⟩), Nat.add_sub_cancel, List.take_left, List.drop_left]

/-- Nothing but the bytes of an element is taken off the data. -/
theorem of_splitLtv_eq_some (hsplit : splitLtv data = some (element, rest)) :
    data = element.bytes ++ rest ∧ element.Fits := by
  unfold splitLtv at hsplit
  split at hsplit
  next len type data =>
    split at hsplit
    next => exact absurd hsplit nofun
    next hwell =>
      obtain ⟨hne, hroom⟩ := not_or.mp hwell
      obtain ⟨rfl, rfl⟩ := Prod.mk.inj (Option.some.inj hsplit)
      have hpos : 0 < len.toNat := Nat.pos_of_ne_zero fun hzero => hne (UInt8.toNat_inj.mp hzero)
      have hlt := len.toNat_lt
      have hlength : (data.take (len.toNat - 1)).length = len.toNat - 1 := by
        rw [List.length_take]
        omega
      refine ⟨?_, by rw [Ltv.Fits, hlength]; omega⟩
      rw [Ltv.bytes, hlength, Nat.sub_add_cancel hpos, UInt8.ofNat_toNat, List.cons_append,
        List.cons_append, List.take_append_drop]
  next => exact absurd hsplit nofun

theorem length_bytes (element : Ltv) : element.bytes.length = element.value.length + 2 := rfl

theorem walkLtv_nil (fuel : Nat) : walkLtv fuel [] = [] := by
  cases fuel with
  | zero => rfl
  | succ fuel => rfl

/-- Fuel for every byte is enough. -/
theorem walkLtv_eq {fuel other : Nat} (hfuel : data.length ≤ fuel) (hother : data.length ≤ other) :
    walkLtv fuel data = walkLtv other data := by
  induction fuel generalizing data other with
  | zero => rw [List.length_eq_zero_iff.mp (Nat.le_zero.mp hfuel), walkLtv_nil, walkLtv_nil]
  | succ fuel ih =>
      cases other with
      | zero => rw [List.length_eq_zero_iff.mp (Nat.le_zero.mp hother), walkLtv_nil, walkLtv_nil]
      | succ other =>
          rw [walkLtv, walkLtv]
          cases hsplit : splitLtv data with
          | none => rfl
          | some taken =>
              obtain ⟨element, rest⟩ := taken
              have hshort := congrArg List.length (of_splitLtv_eq_some hsplit).1
              rw [List.length_append, length_bytes] at hshort
              dsimp only
              rw [ih (show rest.length ≤ fuel by omega) (show rest.length ≤ other by omega)]

theorem ltvs_bytes_append (hfits : element.Fits) (rest : List UInt8) :
    ltvs (element.bytes ++ rest) = element :: ltvs rest := by
  have hlength : (element.bytes ++ rest).length = element.value.length + rest.length + 1 + 1 := by
    rw [List.length_append, length_bytes]
    omega
  rw [ltvs, hlength, walkLtv, splitLtv_bytes hfits]
  dsimp only
  rw [List.map_cons, ltvs, walkLtv_eq (show rest.length ≤ _ by omega) (Nat.le_refl _)]

/-- Elements are read back from their bytes. -/
theorem ltvs_flatMap {elements : List Ltv} (hfits : ∀ element ∈ elements, element.Fits) :
    ltvs (elements.flatMap Ltv.bytes) = elements := by
  induction elements with
  | nil => rfl
  | cons element elements ih =>
      rw [List.flatMap_cons, ltvs_bytes_append (hfits element List.mem_cons_self),
        ih fun other hmem => hfits other (List.mem_cons_of_mem _ hmem)]

theorem fits_of_mem_walkLtv {fuel : Nat} (hmem : (element, rest) ∈ walkLtv fuel data) :
    element.Fits := by
  induction fuel generalizing data with
  | zero => exact absurd hmem List.not_mem_nil
  | succ fuel ih =>
      rw [walkLtv] at hmem
      cases hsplit : splitLtv data with
      | none =>
          rw [hsplit] at hmem
          exact absurd hmem List.not_mem_nil
      | some taken =>
          obtain ⟨first, others⟩ := taken
          rw [hsplit] at hmem
          rcases List.mem_cons.mp hmem with hsame | hlater
          · obtain ⟨rfl, rfl⟩ := Prod.mk.inj hsame
            exact (of_splitLtv_eq_some hsplit).2
          · exact ih hlater

theorem fits_of_mem_ltvs (hmem : element ∈ ltvs data) : element.Fits := by
  obtain ⟨⟨_, rest⟩, hwalk, rfl⟩ := List.mem_map.mp hmem
  exact fits_of_mem_walkLtv hwalk

/-- A walk has half as many elements as there are bytes. -/
theorem length_walkLtv (fuel : Nat) (data : List UInt8) :
    2 * (walkLtv fuel data).length ≤ data.length := by
  induction fuel generalizing data with
  | zero => exact Nat.zero_le _
  | succ fuel ih =>
      rw [walkLtv]
      cases hsplit : splitLtv data with
      | none => exact Nat.zero_le _
      | some taken =>
          obtain ⟨element, rest⟩ := taken
          have hshort := congrArg List.length (of_splitLtv_eq_some hsplit).1
          have hrest := ih rest
          rw [List.length_append, length_bytes] at hshort
          rw [List.length_cons]
          omega

end Walk

/-! ## Up to the first one -/

section UpTo

universe uItem

variable {Item : Type uItem}

/-- The items up to and including the first one of a kind. -/
def upTo (p : Item → Bool) : List Item → List Item
  | [] => []
  | item :: items => if p item then [item] else item :: upTo p items

variable {p : Item → Bool}

theorem mem_upTo {item : Item} {items : List Item} :
    item ∈ upTo p items ↔
      ∃ before after, items = before ++ item :: after ∧ ∀ other ∈ before, p other = false := by
  induction items with
  | nil => simp [upTo]
  | cons head tail ih =>
      rw [upTo]
      constructor
      · intro hmem
        split at hmem
        next =>
          obtain rfl := List.mem_singleton.mp hmem
          exact ⟨[], tail, rfl, by simp⟩
        next hother =>
          rcases List.mem_cons.mp hmem with rfl | htail
          · exact ⟨[], tail, rfl, by simp⟩
          · obtain ⟨before, after, rfl, hbefore⟩ := ih.mp htail
            refine ⟨head :: before, after, rfl, fun other hmem => ?_⟩
            rcases List.mem_cons.mp hmem with rfl | hmem
            · exact Bool.eq_false_of_not_eq_true hother
            · exact hbefore other hmem
      · rintro ⟨before, after, heq, hbefore⟩
        cases before with
        | nil =>
            obtain ⟨rfl, rfl⟩ := List.cons.inj heq
            split
            next => exact List.mem_singleton_self _
            next => exact List.mem_cons_self
        | cons first before =>
            obtain ⟨rfl, rfl⟩ := List.cons.inj heq
            rw [hbefore head List.mem_cons_self, if_neg Bool.false_ne_true]
            refine List.mem_cons_of_mem _ (ih.mpr ⟨before, after, rfl, fun other hmem => ?_⟩)
            exact hbefore other (List.mem_cons_of_mem _ hmem)

theorem find?_upTo (items : List Item) : (upTo p items).find? p = items.find? p := by
  induction items with
  | nil => rfl
  | cons head tail ih =>
      rw [upTo]
      split
      next hp => rw [List.find?_cons_of_pos hp, List.find?_cons_of_pos hp]
      next hp => rw [List.find?_cons_of_neg hp, List.find?_cons_of_neg hp, ih]

/-- What lies behind the first one does not count. -/
theorem upTo_append_cons {before after : List Item} {item : Item}
    (hbefore : ∀ other ∈ before, p other = false) (hitem : p item = true) :
    upTo p (before ++ item :: after) = before ++ [item] := by
  induction before with
  | nil => rw [List.nil_append, upTo, if_pos hitem, List.nil_append]
  | cons first before ih =>
      rw [List.cons_append, upTo, hbefore first List.mem_cons_self, if_neg Bool.false_ne_true,
        ih fun other hmem => hbefore other (List.mem_cons_of_mem _ hmem), List.cons_append]

end UpTo

end Machine
