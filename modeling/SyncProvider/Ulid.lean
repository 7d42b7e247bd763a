import SyncProvider.Android.Ulid
import SyncProvider.Ios.Ulid

/-!
# Ids in increasing order

The two encoders cut the random bytes in different ways and write the same text, in
the order of the timestamps and the bytes.

Both generators promise ids that increase. They do as long as the 80 random bits do
not wrap around within a timestamp. Then Android means to move the timestamp on and
does so for later calls only, and iOS does not mean to.

Results:
1. `encodes_in_order` : the two encoders, and the order of what they write.
2. `ids_increase_iff` : when the ids increase.
3. `wrapped_ids_decrease` : two ids after which they do not.
-/

namespace SyncProvider

/-! ## 1. The two encoders -/

/-- For all timestamps of 48 bits and all random bytes: the two encoders write the same
26 characters, all of them ASCII. The text determines the timestamp and the bytes, and
texts are ordered as the timestamps are, and within a timestamp as the bytes, taken as
one number with the most significant byte first. -/
theorem encodes_in_order {ts ts' : ℕ} {e e' : Entropy} (hts : ts < 2 ^ 48) (hts' : ts' < 2 ^ 48) :
    Android.Ulid.encode ts e = Ios.ULID.encode ts e ∧
    (Ios.ULID.encode ts e).length = 26 ∧
    (∀ c ∈ (Ios.ULID.encode ts e).toList, c.toNat < 0x80) ∧
    (Ios.ULID.encode ts e = Ios.ULID.encode ts' e' → ts = ts' ∧ e.bytes = e'.bytes) ∧
    (Ios.ULID.encode ts e < Ios.ULID.encode ts' e' ↔ ts < ts' ∨ ts = ts' ∧ e.value < e'.value) := by
  have hascends := Ios.ULID.ascends_crockfordAlphabet
  rw [Android.Ulid.encode_eq hts, Ios.ULID.encode_eq hts, Ios.ULID.encode_eq hts']
  refine ⟨rfl, length_text _ ts e, ?_, text_inj hascends hts hts', text_lt_iff hascends hts hts'⟩
  intro c hc
  exact ascii_text (by decide +kernel) hc

/-- Ten equal bytes. -/
def Entropy.repeated (b : BitVec 8) : Entropy := ⟨List.replicate 10 b, rfl⟩

/-- The last millisecond of 48 bits, with the largest and the smallest random part. -/
theorem encodes_in_order_at_the_end :
    Android.Ulid.encode (2 ^ 48 - 1 : ℕ) (.repeated 0) =
        Ios.ULID.encode (2 ^ 48 - 1) (.repeated 0) ∧
      Ios.ULID.encode (2 ^ 48 - 1) (.repeated 0) <
        Ios.ULID.encode (2 ^ 48 - 1) (.repeated 0xFF) := by
  have hlast : 2 ^ 48 - 1 < 2 ^ 48 := by norm_num
  have h := @encodes_in_order _ _ (.repeated 0) (.repeated 0xFF) hlast hlast
  exact ⟨h.1, h.2.2.2.2.mpr (.inr ⟨rfl, by decide⟩)⟩

/-! ## 2. When the ids increase -/

/-- For every output of the random source: the ids that Android issues to calls with
timestamps of 48 bits that do not decrease, and those that iOS issues at any clock
readings of 48 bits, increase exactly when no call finds the ten random bytes of the
last id at their maximum within the same timestamp. -/
theorem ids_increase_iff {calls : List Android.Ulid.Call} {calls' : List Ios.ULID.Call}
    (hsorted : calls.Pairwise fun call call' => call.timestampMs ≤ call'.timestampMs)
    (hbound : ∀ call ∈ calls, call.timestampMs < 2 ^ 48)
    (hbound' : ∀ call ∈ calls', call.nowMs < 2 ^ 48) :
    ((Issues.issued Android.Ulid.generate Android.Ulid.initial calls).Pairwise (· < ·) ↔
      StepSystem.Meets (Issues.step Android.Ulid.generate)
        (fun s call => ¬ Android.Ulid.Overflows s call) Android.Ulid.initial calls) ∧
    ((Issues.issued Ios.ULID.generate Ios.ULID.initial calls').Pairwise (· < ·) ↔
      StepSystem.Meets (Issues.step Ios.ULID.generate)
        (fun s call => ¬ Ios.ULID.Overflows s call) Ios.ULID.initial calls') := by
  have hordered : Android.Ulid.Ordered Android.Ulid.initial calls := by
    refine ⟨by decide, by decide, fun call hcall => ⟨?_, hbound call hcall⟩, hsorted⟩
    exact (show (-1 : Int) ≤ 0 by decide).trans (le_max_right _ _)
  have hbounded : Ios.ULID.Bounded Ios.ULID.initial calls' := ⟨by decide, hbound'⟩
  exact ⟨Issues.increasing_iff Android.Ulid.rules hordered Android.Ulid.not_overflows_initial,
    Issues.increasing_iff Ios.ULID.rules hbounded Ios.ULID.not_overflows_initial⟩

section Sample

/-- Two ids within a millisecond and one in the next. -/
def androidCalls : List Android.Ulid.Call :=
  [⟨1000, .repeated 0x7F⟩, ⟨1000, .repeated 0⟩, ⟨1001, .repeated 0⟩]

/-- The clock goes back in between. -/
def iosCalls : List Ios.ULID.Call :=
  [⟨1000, .repeated 0x7F⟩, ⟨999, .repeated 0⟩, ⟨1001, .repeated 0⟩]

theorem ids_increase_across_milliseconds :
    (Issues.issued Android.Ulid.generate Android.Ulid.initial androidCalls).Pairwise (· < ·) ∧
    (Issues.issued Ios.ULID.generate Ios.ULID.initial iosCalls).Pairwise (· < ·) := by
  have hsorted : androidCalls.Pairwise fun call call' => call.timestampMs ≤ call'.timestampMs := by
    simp [androidCalls]
  have hbound : ∀ call ∈ androidCalls, call.timestampMs < 2 ^ 48 := by simp [androidCalls]
  have hbound' : ∀ call ∈ iosCalls, call.nowMs < 2 ^ 48 := by simp [iosCalls]
  have h := ids_increase_iff hsorted hbound hbound'
  exact ⟨h.1.mpr (by decide +kernel), h.2.mpr (by decide +kernel)⟩

/-! ## 3. Random bytes that wrap around -/

/-- The random bytes of the first id are all at their maximum. The second id comes in
the same millisecond, and on both platforms it is no greater. -/
theorem wrapped_ids_decrease :
    ¬ (Issues.issued Android.Ulid.generate Android.Ulid.initial
      [⟨1000, .repeated 0xFF⟩, ⟨1000, .repeated 0⟩]).Pairwise (· < ·) ∧
    ¬ (Issues.issued Ios.ULID.generate Ios.ULID.initial
      [⟨1000, .repeated 0xFF⟩, ⟨1000, .repeated 0⟩]).Pairwise (· < ·) := by
  constructor <;> decide +kernel

end Sample

end SyncProvider
