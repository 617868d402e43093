import BalanceFrame.Library.LexCodes
import BalanceFrame.Liquidity.Time
import Mathlib.Data.Char

/-!
# The order of rule identities

Rust compares strings as their UTF-8 bytes. `nativeIdBefore`
(`packages/protocol-generated/src/merchant-validators.ts`) walks their UTF-16 units by code points.
Both are the order of the characters (`utf8Before_iff`, `nativeIdBefore_iff`).
-/

namespace BalanceFrame.Merchant

open Library List
open Liquidity (bytes)

/-! ## UTF-8 -/

/-- `<` of two Rust strings. -/
def utf8Before (left right : String) : Bool := decide (bytes left < bytes right)

/-- The bytes of a character. -/
def utf8Code (c : Char) : List Nat := (String.utf8EncodeChar c).map UInt8.toNat

variable (c : Char)

theorem toNat_lt : c.toNat < 0x110000 := by
  have h := c.valid
  simp only [UInt32.isValidChar, Nat.isValidChar] at h
  change c.val.toNat < _
  omega

theorem utf8Code_eq : utf8Code c =
    if c.toNat ≤ 0x7f then [c.toNat]
    else if c.toNat ≤ 0x7ff then [c.toNat / 64 + 192, c.toNat % 64 + 128]
    else if c.toNat ≤ 0xffff then
      [c.toNat / 4096 + 224, c.toNat / 64 % 64 + 128, c.toNat % 64 + 128]
    else [c.toNat / 262144 + 240, c.toNat / 4096 % 64 + 128, c.toNat / 64 % 64 + 128,
      c.toNat % 64 + 128] := by
  have h := toNat_lt c
  have hv : c.val.toNat = c.toNat := rfl
  unfold utf8Code String.utf8EncodeChar
  rw [hv]
  dsimp only
  split
  · simp only [map_cons, map_nil, UInt8.toNat_ofNat', List.cons.injEq, and_true]
    omega
  · split
    · simp only [map_cons, map_nil, UInt8.toNat_ofNat', List.cons.injEq, and_true]
      omega
    · split
      · simp only [map_cons, map_nil, UInt8.toNat_ofNat', List.cons.injEq, and_true]
        omega
      · simp only [map_cons, map_nil, UInt8.toNat_ofNat', List.cons.injEq, and_true]
        omega

theorem orderCode_utf8 : OrderCode utf8Code where
  nonempty c := by
    rw [utf8Code_eq]
    split_ifs <;> simp
  lt c d hlt x y := by
    have hcd : c.toNat < d.toNat := hlt
    have hd := toNat_lt d
    rw [utf8Code_eq, utf8Code_eq]
    split_ifs <;> simp only [cons_append, nil_append, cons_lt_cons_iff] <;> omega

theorem utf8Before_iff (left right : String) :
    utf8Before left right = true ↔ left.toList < right.toList := by
  rw [utf8Before, decide_eq_true_iff]
  exact orderCode_utf8.flatMap_lt_iff left.toList right.toList

/-! ## UTF-16 -/

/-- The UTF-16 units of a character. -/
def utf16Code (c : Char) : List Nat :=
  if c.toNat < 0x10000 then [c.toNat]
  else [0xd800 + (c.toNat - 0x10000) / 1024, 0xdc00 + (c.toNat - 0x10000) % 1024]

/-- The UTF-16 units of a string. -/
def units16 (s : String) : List Nat := s.toList.flatMap utf16Code

/-- `codePointAt` the start. -/
def codePointAt : List Nat → Nat
  | [] => 0
  | [u] => u
  | u :: v :: _ =>
    if (0xd800 ≤ u ∧ u < 0xdc00) ∧ (0xdc00 ≤ v ∧ v < 0xe000) then
      0x10000 + (u - 0xd800) * 1024 + (v - 0xdc00)
    else u

/-- The units that a code point takes. -/
def pointUnits (point : Nat) : Nat := if 65535 < point then 2 else 1

/-- The loop of `nativeIdBefore`, on what is left of both. -/
def idBefore : Nat → List Nat → List Nat → Bool
  | _, _, [] => false
  | _, [], _ :: _ => true
  | 0, _ :: _, _ :: _ => false
  | fuel + 1, left@(_ :: _), right@(_ :: _) =>
    let x := codePointAt left
    let y := codePointAt right
    if x != y then decide (x < y)
    else idBefore fuel (left.drop (pointUnits x)) (right.drop (pointUnits y))

def nativeIdBefore (left right : String) : Bool :=
  idBefore (units16 left).length (units16 left) (units16 right)

theorem utf16Code_length : (utf16Code c).length = pointUnits c.toNat := by
  unfold utf16Code pointUnits
  split_ifs <;> simp_all <;> omega

theorem utf16Code_ne_nil : utf16Code c ≠ [] := by
  unfold utf16Code
  split_ifs <;> simp

theorem codePointAt_utf16 (x : List Nat) : codePointAt (utf16Code c ++ x) = c.toNat := by
  have hvalid := c.valid
  simp only [UInt32.isValidChar, Nat.isValidChar] at hvalid
  have hv : c.val.toNat = c.toNat := rfl
  rw [hv] at hvalid
  unfold utf16Code
  split_ifs with h
  · cases x with
    | nil => rfl
    | cons v x =>
      rw [singleton_append, codePointAt, if_neg]
      omega
  · rw [cons_append, singleton_append, codePointAt, if_pos (by omega)]
    omega

theorem idBefore_iff : ∀ (fuel : Nat) (l m : List Char), (l.flatMap utf16Code).length ≤ fuel →
    (idBefore fuel (l.flatMap utf16Code) (m.flatMap utf16Code) = true ↔ l < m)
  | fuel, l, [], _ => by
    unfold idBefore
    simp
  | fuel, [], d :: m, _ => by
    obtain ⟨u, w, hu⟩ := exists_cons_of_ne_nil (utf16Code_ne_nil d)
    rw [flatMap_cons, hu, flatMap_nil, cons_append, idBefore]
    simp
  | fuel, c :: l, d :: m, hfuel => by
    obtain ⟨u, w, hu⟩ := exists_cons_of_ne_nil (utf16Code_ne_nil c)
    obtain ⟨v, z, hv⟩ := exists_cons_of_ne_nil (utf16Code_ne_nil d)
    have hx := codePointAt_utf16 c (l.flatMap utf16Code)
    have hy := codePointAt_utf16 d (m.flatMap utf16Code)
    have hdropc : (utf16Code c ++ l.flatMap utf16Code).drop (pointUnits c.toNat) =
        l.flatMap utf16Code := by
      rw [← utf16Code_length, drop_left]
    have hdropd : (utf16Code d ++ m.flatMap utf16Code).drop (pointUnits d.toNat) =
        m.flatMap utf16Code := by
      rw [← utf16Code_length, drop_left]
    rw [flatMap_cons] at hfuel ⊢
    rw [flatMap_cons]
    cases fuel with
    | zero =>
      rw [hu] at hfuel
      simp at hfuel
    | succ fuel =>
      have hstep : idBefore (fuel + 1) (utf16Code c ++ l.flatMap utf16Code)
          (utf16Code d ++ m.flatMap utf16Code) =
          if c.toNat != d.toNat then decide (c.toNat < d.toNat)
          else idBefore fuel (l.flatMap utf16Code) (m.flatMap utf16Code) := by
        rw [hu, cons_append] at hx hdropc ⊢
        rw [hv, cons_append] at hy hdropd ⊢
        rw [idBefore]
        simp only [hx, hy, hdropc, hdropd]
      rw [hstep, cons_lt_cons_iff]
      by_cases hcd : c = d
      · subst hcd
        have hlen : (l.flatMap utf16Code).length ≤ fuel := by
          rw [hu] at hfuel
          simp only [cons_append, length_cons, length_append] at hfuel
          omega
        simp [idBefore_iff fuel l m hlen]
      · have hne : c.toNat ≠ d.toNat := fun h => hcd (Char.toNat_inj.mp h)
        have hlt : c < d ↔ c.toNat < d.toNat := Iff.rfl
        simp [hcd, hne, hlt]

theorem nativeIdBefore_iff (left right : String) :
    nativeIdBefore left right = true ↔ left.toList < right.toList :=
  idBefore_iff _ left.toList right.toList (le_refl _)

theorem nativeIdBefore_eq (left right : String) :
    nativeIdBefore left right = utf8Before left right := by
  rw [Bool.eq_iff_iff, nativeIdBefore_iff, utf8Before_iff]

end BalanceFrame.Merchant
