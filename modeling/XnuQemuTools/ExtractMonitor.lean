/-
Where the two scripts for compressed kernel images cut them
(`bootstrap_scripts/decompress_lzss.py` and `kernelcompressedextractmonitor.py`).

A kernel image is a header of 0x180 bytes, the compressed kernel and, behind it, a
monitor. Each script finds the end of the compressed kernel by itself: one in the length
it counts its source bytes against, the other in a sum. `cut_at_same_place` is about
both. The decompressor learns of its source only through `fetch`, which asks for the
length first, so sources that agree up to there cannot be told apart (`fetch_congr`).

The extractor is written for Python 2, where the data and the text are both strings of
bytes.
-/
import XnuQemuTools.CString
import XnuQemuTools.LzssStream

set_option autoImplicit false

namespace XnuQemuTools.Lzss

open CString Loop Python

/-! ## `kernelcompressedextractmonitor.py` -/

/-- The lines that `decode` prints, and what it returns. -/
structure Extracted where
  printed : List Bytes
  returned : Bytes
  deriving DecidableEq

/-- `decode`. -/
def decode (data : Bytes) : Except PyError Extracted :=
  if slice data 0 8 ≠ magic then
    .ok ⟨[ascii "error: unsupported format: " ++ slice data 0 7], []⟩
  else do
    let compressed_size ← unpackBE (slice data 16 20)
    let end_of_compressed_data := compressed_size + 0x180
    return ⟨[], data.drop end_of_compressed_data⟩

/-! ## What the loop sees of its source -/

section Fetch

variable {source source' : Source}

/-- Two sources with the same `srclen` bytes. -/
theorem fetch_congr (hlen : source'.srclen = source.srclen)
    (hbytes : ∀ i, i < source.srclen → source'.src[i]? = source.src[i]?) :
    fetch source' = fetch source := by
  funext s
  unfold fetch
  rw [hlen]
  split
  · rfl
  · rename_i hlt
    rw [item, item, hbytes s.srcidx (Nat.lt_of_not_le hlt)]

/-- The body of the loop reads its source with `fetch` only. -/
theorem iteration_congr (h : fetch source' = fetch source) :
    iteration source' = iteration source := by
  funext s
  simp only [iteration, refill, token, literal, reference, h]

end Fetch

/-! ## One image -/

section Image

variable {header c : Bytes}

/-- A slice of the header is one of the image. -/
theorem slice_image {m n : ℕ} (hn : n ≤ header.length) (b : Bytes) :
    slice (header ++ b) m n = slice header m n := by
  rw [slice, slice]
  rcases Nat.le_total n m with hle | hle
  · rw [Nat.sub_eq_zero_of_le hle, List.take_zero, List.take_zero]
  · rw [List.drop_append_of_le_length (hle.trans hn), List.take_append_of_le_length]
    rw [List.length_drop]
    omega

/-- The header is one for any bytes behind it. -/
theorem header_image {decompsize srclen : ℕ} (hlen : header.length = 0x180)
    (h : Header header decompsize srclen) (b : Bytes) : Header (header ++ b) decompsize srclen := by
  have hslice : ∀ m n, n ≤ 0x180 → slice (header ++ b) m n = slice header m n :=
    fun m n hn => slice_image (hlen ▸ hn) b
  refine ⟨?_, ?_, ?_⟩
  · rw [hslice 0 8 (by decide)]
    exact h.magic
  · rw [hslice 12 16 (by decide)]
    exact h.decompsize
  · rw [hslice 16 20 (by decide)]
    exact h.srclen

/-- **One cut.** Whatever the compressed kernel and the monitor are, the extractor returns
the monitor, and the decompressor does the same for any monitor: it returns the expansion of
all of the compressed kernel, or fails if that is too long. It needs every byte of it: an image
that ends earlier makes it fail. -/
theorem cut_at_same_place (hlen : header.length = 0x180) (hmagic : slice header 0 8 = magic)
    (hsize : unpackBE (slice header 16 20) = .ok c.length) :
    (∀ m, decode (header ++ (c ++ m)) = .ok ⟨[], m⟩)
      ∧ (∀ fuel m m', decompress_lzss fuel (header ++ (c ++ m'))
          = decompress_lzss fuel (header ++ (c ++ m)))
      ∧ ∃ decompsize, unpackBE (slice header 12 16) = .ok decompsize ∧ ∀ fuel, c.length < fuel →
        (∀ m, decompress_lzss fuel (header ++ (c ++ m))
          = some ((outcome decompsize ((tokens c).foldl Token.apply [])).map .returned))
        ∧ ∀ k < c.length, decompress_lzss fuel (header ++ c.take k)
          = some (.error .IndexError) := by
  have hslice : ∀ (m n : ℕ) (b : Bytes), n ≤ 0x180 → slice (header ++ b) m n = slice header m n :=
    fun m n b hn => slice_image (hlen ▸ hn) b
  have hdrop : ∀ b : Bytes, (header ++ b).drop 0x180 = b := fun b => hlen ▸ List.drop_left
  refine ⟨fun m => ?_, fun fuel m m' => ?_, ?_⟩
  · have hend : (header ++ (c ++ m)).drop (c.length + 0x180) = m := by
      rw [Nat.add_comm, ← List.drop_drop, hdrop, List.drop_left]
    rw [decode, hslice 0 8 _ (by decide), if_neg (not_not_intro hmagic), hslice 16 20 _ (by decide),
      hsize]
    exact congrArg (fun b => Except.ok (Extracted.mk [] b)) hend
  · -- the two runs differ in the source alone, and behind its `srclen` bytes
    have hfetch : fetch ⟨c ++ m', c.length⟩ = fetch ⟨c ++ m, c.length⟩ :=
      fetch_congr rfl fun i hi => by
        rw [List.getElem?_append_left hi, List.getElem?_append_left hi]
    rw [decompress_lzss, decompress_lzss]
    simp only [hslice 0 8 _ (by decide), hslice 12 16 _ (by decide), hslice 16 20 _ (by decide),
      hsize, hdrop]
    cases unpackBE (slice header 12 16) with
    | error e => rfl
    | ok decompsize => simp only [iteration_congr hfetch]
  · have hword : (slice header 12 16).length = 4 := by
      rw [slice, List.length_take, List.length_drop, hlen]
      rfl
    obtain ⟨decompsize, hdecompsize⟩ := exists_unpackBE hword
    have hheader := header_image hlen ⟨hmagic, hdecompsize, hsize⟩
    refine ⟨decompsize, hdecompsize, fun fuel hfuel => ⟨fun m => ?_, fun k hk => ?_⟩⟩
    · have hpayload : payload (header ++ (c ++ m)) c.length = c := by
        rw [payload, hdrop, List.take_left]
      have hwhole : c.length ≤ ((header ++ (c ++ m)).drop 0x180).length := by
        rw [hdrop, List.length_append]
        exact Nat.le_add_right _ _
      rw [(hheader (c ++ m)).decompress_lzss_whole hwhole hfuel, hpayload]
    · refine (hheader (c.take k)).decompress_lzss_short ?_ hfuel
      rw [hdrop, List.length_take]
      exact (Nat.min_le_left k c.length).trans_lt hk

/-- An image: a header for a stream of two bytes, those bytes and a monitor of one. -/
def smallHeader : Bytes :=
  magic ++ [0, 0, 0, 0, 0, 0, 0, 1, 0, 0, 0, 2] ++ List.replicate 364 0

theorem cut_at_same_place_small :
    decode (smallHeader ++ ([1, 0x61] ++ [0xff])) = .ok ⟨[], [0xff]⟩
      ∧ decompress_lzss 3 (smallHeader ++ ([1, 0x61] ++ [0xff])) = some (.ok (.returned [0x61]))
      ∧ decompress_lzss 3 (smallHeader ++ ([1, 0x61] ++ []))
        = decompress_lzss 3 (smallHeader ++ ([1, 0x61] ++ [0xff]))
      ∧ decompress_lzss 3 (smallHeader ++ [1]) = some (.error .IndexError) := by
  obtain ⟨hmonitor, hkernel, decompsize, hsize, hwhole⟩ :=
    @cut_at_same_place smallHeader [1, 0x61] (by decide +kernel) rfl rfl
  obtain ⟨hall, hshort⟩ := hwhole 3 (by decide)
  obtain rfl : 1 = decompsize := Except.ok.inj hsize
  exact ⟨hmonitor [0xff], hall [0xff], hkernel 3 [0xff] [], hshort 1 (by decide)⟩

end Image

end XnuQemuTools.Lzss
