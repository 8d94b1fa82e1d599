import HashLoader.Bytes

/-!
# Pages

Code images and the buffers they are loaded into are measured in pages of 4096 bytes.
-/

namespace HashLoader

/-- The length of a page in bytes. -/
def pageSize : Nat := 4096

/-- How many units of a size hold `n`. A last unit that is not filled counts. -/
def unitsFor (n unit : Nat) : Nat := n / unit + if n % unit = 0 then 0 else 1

/-- Tells whether a length is a whole number of pages. -/
def isPageAligned (len : Nat) : Bool := len % pageSize == 0

/-- The least whole number of pages that holds `len` bytes. -/
def alignUp (len : Nat) : Nat := unitsFor len pageSize * pageSize

/-- The units that hold `n` have room for it. -/
theorem le_unitsFor_mul (n : Nat) {unit : Nat} (hunit : 0 < unit) : n ≤ unitsFor n unit * unit := by
  have hsplit := Nat.div_add_mod' n unit
  have hrest := Nat.mod_lt n hunit
  rw [unitsFor, Nat.add_mul]
  split
  · omega
  · omega

/-- None of them is spare. -/
theorem unitsFor_mul_lt (n : Nat) {unit : Nat} (hunit : 0 < unit) :
    unitsFor n unit * unit < n + unit := by
  have hsplit := Nat.div_add_mod' n unit
  rw [unitsFor, Nat.add_mul]
  split
  · omega
  · omega

theorem le_alignUp (len : Nat) : len ≤ alignUp len := le_unitsFor_mul len (by decide)

theorem alignUp_lt (len : Nat) : alignUp len < len + pageSize := unitsFor_mul_lt len (by decide)

theorem isPageAligned_alignUp (len : Nat) : isPageAligned (alignUp len) = true := by
  simp [isPageAligned, alignUp]

theorem alignUp_le {len n : Nat} (hlen : len ≤ n) (hn : pageSize ∣ n) : alignUp len ≤ n := by
  unfold alignUp unitsFor
  unfold pageSize at hn ⊢
  split
  · omega
  · omega

/-- A whole number of pages is not rounded. -/
theorem alignUp_of_dvd {n : Nat} (hn : pageSize ∣ n) : alignUp n = n :=
  Nat.le_antisymm (alignUp_le (Nat.le_refl n) hn) (le_alignUp n)

end HashLoader
