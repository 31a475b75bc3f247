import Mathlib
import NTD97.Core
import NTD97.Lib.Guard
import NTD97.Lib.Slices
import NTD97.Lib.Tiling

/-!
# Mobile/Paging — a region read page by page

    0 ─page─▸ ─page─▸ … ─rest─▸ total        one window for each page

The loop cuts the region into windows, and the reader reads it a window at a time.  The two meet at
`Tiling.Cut`: the loop makes one (`pushWindows_cut`), and a region that answers as its bytes do is
read whole through any tiling (`PagedByteReader.exists_pages`).

The targets have `usize` at two widths, so the width is a parameter (`PointerWidth`).  A vector
holds at most `isize::MAX` bytes, and asking for room for more panics: that, and nothing smaller,
bounds the number of pages (`exists_pageWindows_iff`).
-/

namespace NTD97

open Guard Slices Tiling

/-! ## Words -/

theorem toNat_min64 (a b : UInt64) : (min a b).toNat = min a.toNat b.toNat := by
  change (if a ≤ b then a else b).toNat = _
  split
  · next h => exact (Nat.min_eq_left (UInt64.le_iff_toNat_le.1 h)).symm
  · next h =>
    have hge : b.toNat ≤ a.toNat := Nat.le_of_not_le (mt UInt64.le_iff_toNat_le.2 h)
    exact (Nat.min_eq_right hge).symm

/-- `u64::div_ceil`. -/
def divCeil (a b : UInt64) : UInt64 := if 0 < a % b then a / b + 1 else a / b

theorem toNat_divCeil {a b : UInt64} (hb : 0 < b.toNat) :
    (divCeil a b).toNat = a.toNat ⌈/⌉ b.toNat := by
  have hsplit := Nat.div_add_mod a.toNat b.toNat
  have hmod := Nat.mod_lt a.toNat hb
  have hrest : 0 < a % b ↔ 0 < a.toNat % b.toNat := by
    rw [UInt64.lt_iff_toNat_lt, UInt64.toNat_mod, UInt64.toNat_zero]
  rw [Nat.ceilDiv_eq_add_pred_div, divCeil, eq_comm]
  split
  · next h =>
    have hpos := hrest.1 h
    -- a remainder means that the divisor is not 1, so the quotient has room for one more
    have hquotient : a.toNat / b.toNat < a.toNat :=
      Nat.div_lt_self (hpos.trans_le (Nat.mod_le _ _)) (by omega)
    have hfits : a.toNat / b.toNat + 1 < 2 ^ 64 :=
      (Nat.succ_le_of_lt hquotient).trans_lt a.toNat_lt
    rw [UInt64.toNat_add, UInt64.toNat_div, UInt64.toNat_one, Nat.mod_eq_of_lt hfits]
    refine Nat.div_eq_of_lt_le ?_ ?_
    · rw [Nat.succ_mul, Nat.mul_comm]
      omega
    · rw [Nat.succ_mul, Nat.succ_mul, Nat.mul_comm]
      omega
  · next h =>
    have hzero := mt hrest.2 h
    rw [UInt64.toNat_div]
    refine Nat.div_eq_of_lt_le ?_ ?_
    · rw [Nat.mul_comm]
      omega
    · rw [Nat.succ_mul, Nat.mul_comm]
      omega

/-! ## Windows -/

inductive MobileComputeError where
  | overflow
  | invalidPageSize
  deriving DecidableEq

structure PageWindow where
  offset : UInt64
  len : UInt64
  deriving DecidableEq

namespace PageWindow

/-- `size_of::<PageWindow>()`: two words of eight bytes. -/
def size : ℕ := 16

def start (self : PageWindow) : ℕ := self.offset.toNat

def stop (self : PageWindow) : ℕ := self.offset.toNat + self.len.toNat

/-- The places of the region that it shows. -/
def places (self : PageWindow) : Set ℕ := Set.Ico self.start self.stop

end PageWindow

variable {totalBytes pageBytes offset next : UInt64}

/-- **Where a round ends**: a page further, or at the end of the region. -/
theorem toNat_offset_add (hlt : offset < totalBytes) :
    offset.toNat + (min (totalBytes - offset) pageBytes).toNat =
      min (offset.toNat + pageBytes.toNat) totalBytes.toNat := by
  have hle : offset.toNat ≤ totalBytes.toNat := (UInt64.lt_iff_toNat_lt.1 hlt).le
  have hremaining : (totalBytes - offset).toNat = totalBytes.toNat - offset.toNat :=
    UInt64.toNat_sub_of_le _ _ (UInt64.le_iff_toNat_le.2 hle)
  rw [toNat_min64, hremaining]
  omega

theorem pageBytes_pos (hpage : pageBytes ≠ 0) : 0 < pageBytes.toNat :=
  Nat.pos_of_ne_zero fun h => hpage (UInt64.toNat_inj.1 h)

/-- A round moves on. -/
theorem lt_next (hpage : pageBytes ≠ 0) (hlt : offset < totalBytes)
    (hnext : checkedAdd64 offset (min (totalBytes - offset) pageBytes) = some next) :
    offset.toNat < next.toNat := by
  have hpos := pageBytes_pos hpage
  have hlt' := UInt64.lt_iff_toNat_lt.1 hlt
  rw [checkedAdd64_eq_some.1 hnext, toNat_offset_add hlt]
  omega

/-- The loop, from the windows and the offset of one of its rounds. -/
def pushWindows (totalBytes pageBytes : UInt64) (hpage : pageBytes ≠ 0)
    (windows : List PageWindow) (offset : UInt64) :
    Except MobileComputeError (List PageWindow) :=
  if offset < totalBytes then
    let remaining := totalBytes - offset
    let len := min remaining pageBytes
    match hnext : checkedAdd64 offset len with
    | none => throw .overflow
    | some next => pushWindows totalBytes pageBytes hpage (windows ++ [⟨offset, len⟩]) next
  else return windows
  termination_by totalBytes.toNat - offset.toNat
  decreasing_by
    have hlt : offset < totalBytes := ‹_›
    have hlt' := UInt64.lt_iff_toNat_lt.1 hlt
    have hmoved := lt_next hpage hlt hnext
    omega

def pageWindows (w : PointerWidth) (totalBytes pageBytes : UInt64) :
    Code MobileComputeError (List PageWindow) :=
  if hpage : pageBytes = 0 then throw .invalidPageSize
  else do
    let pageCount := divCeil totalBytes pageBytes
    let capacity ← okOr (w.toUsize pageCount) .overflow
    let windows ← w.withCapacity PageWindow.size capacity
    liftM (pushWindows totalBytes pageBytes hpage windows 0)

/-! ## Regions and their reader -/

class ByteRegion (R : Type) where
  len : R → UInt64
  readRange : R → UInt64 → UInt64 → Option Bytes

/-- `&[u8]`: a slice is at most `isize::MAX` bytes long. -/
abbrev ByteSlice (w : PointerWidth) := { bytes : Bytes // bytes.length ≤ w.isizeMax }

structure SliceByteRegion (w : PointerWidth) where
  bytes : ByteSlice w

namespace SliceByteRegion

variable {w : PointerWidth}

def new (bytes : ByteSlice w) : SliceByteRegion w := ⟨bytes⟩

/-- `bytes.get(start..stop)`. -/
def get (bytes : Bytes) (start stop : ℕ) : Option Bytes :=
  if start ≤ stop ∧ stop ≤ bytes.length then some (bytes.extract start stop) else none

instance : ByteRegion (SliceByteRegion w) where
  len self :=
    if self.bytes.val.length < 2 ^ 64 then UInt64.ofNat self.bytes.val.length
    else UInt64.ofNat (2 ^ 64 - 1)
  readRange self offset len := do
    let start ← w.toUsize offset
    let width ← w.toUsize len
    let stop ← w.checkedAdd start width
    get self.bytes.val start stop

end SliceByteRegion

structure PagedByteReader (R : Type) where
  region : R
  windows : List PageWindow

namespace PagedByteReader

variable {R : Type} [ByteRegion R]

def new (w : PointerWidth) (region : R) (pageBytes : UInt64) :
    Code MobileComputeError (PagedByteReader R) := do
  let windows ← pageWindows w (ByteRegion.len region) pageBytes
  return ⟨region, windows⟩

def pageCount (self : PagedByteReader R) : ℕ := self.windows.length

def page (self : PagedByteReader R) (index : ℕ) : Option Bytes := do
  let window ← self.windows[index]?
  ByteRegion.readRange self.region window.offset window.len

end PagedByteReader

/-! ## The loop cuts the region -/

/-- **Run lemma**: the rounds from an offset on cut the rest of the region, and none overflows. -/
theorem pushWindows_cut (hpage : pageBytes ≠ 0) (windows : List PageWindow)
    (hle : offset ≤ totalBytes) :
    ∃ rest, pushWindows totalBytes pageBytes hpage windows offset = .ok (windows ++ rest) ∧
      Cut PageWindow.start PageWindow.stop pageBytes.toNat offset.toNat totalBytes.toNat rest := by
  fun_induction pushWindows totalBytes pageBytes hpage windows offset with
  | case1 windows offset hlt remaining len hnone =>
    have hover := checkedAdd64_eq_none.1 hnone
    rw [toNat_offset_add hlt] at hover
    exact absurd totalBytes.toNat_lt (Nat.not_lt.2 (hover.trans (Nat.min_le_right _ _)))
  | case2 windows offset hlt remaining len next hnext ih =>
    have hstop : (⟨offset, len⟩ : PageWindow).stop =
        min (offset.toNat + pageBytes.toNat) totalBytes.toNat := toNat_offset_add hlt
    have hmoved : next.toNat = (⟨offset, len⟩ : PageWindow).stop := checkedAdd64_eq_some.1 hnext
    have hnextle : next ≤ totalBytes := by
      rw [UInt64.le_iff_toNat_le, hmoved, hstop]
      exact Nat.min_le_right _ _
    obtain ⟨rest, hrun, hcut⟩ := ih hnextle
    rw [hmoved] at hcut
    refine ⟨⟨offset, len⟩ :: rest, ?_, .cons rfl (UInt64.lt_iff_toNat_lt.1 hlt) hstop hcut⟩
    rw [hrun, List.append_assoc, List.singleton_append]
  | case3 windows offset hge =>
    obtain rfl : offset = totalBytes := UInt64.le_antisymm hle (UInt64.not_lt.1 hge)
    exact ⟨[], by rw [List.append_nil]; rfl, .nil _⟩

/-! ## What `page_windows` answers -/

variable {w : PointerWidth}

/-- **What it answers**, by the number of pages: one that a word cannot hold is refused, and one
whose windows no vector can hold panics. -/
theorem run_pageWindows (hpage : pageBytes ≠ 0) :
    (pageWindows w totalBytes pageBytes).run =
      if 2 ^ w.bits ≤ totalBytes.toNat ⌈/⌉ pageBytes.toNat then some (.error .overflow)
      else if w.isizeMax < PageWindow.size * (totalBytes.toNat ⌈/⌉ pageBytes.toNat) then none
      else some (pushWindows totalBytes pageBytes hpage [] 0) := by
  rw [pageWindows, dif_neg hpage, ← toNat_divCeil (pageBytes_pos hpage)]
  dsimp only
  split_ifs with hword hroom
  · rw [PointerWidth.toUsize_of_le hword]
    rfl
  · rw [PointerWidth.toUsize_of_lt (Nat.not_le.1 hword)]
    exact PointerWidth.run_withCapacity_bind_of_lt hroom
  · rw [PointerWidth.toUsize_of_lt (Nat.not_le.1 hword)]
    exact PointerWidth.run_withCapacity_bind_of_le (Nat.not_lt.1 hroom)

/-- What a vector can hold, a word can count. -/
theorem run_pageWindows_of_fits (hpage : pageBytes ≠ 0)
    (hfits : PageWindow.size * (totalBytes.toNat ⌈/⌉ pageBytes.toNat) ≤ w.isizeMax) :
    (pageWindows w totalBytes pageBytes).run =
      some (pushWindows totalBytes pageBytes hpage [] 0) := by
  have hcount := Nat.le_mul_of_pos_left (totalBytes.toNat ⌈/⌉ pageBytes.toNat)
    (show 0 < PageWindow.size by decide)
  have hword := hcount.trans_lt (hfits.trans_lt PointerWidth.isizeMax_lt)
  rw [run_pageWindows hpage, if_neg (Nat.not_le.2 hword), if_neg (Nat.not_lt.2 hfits)]

/-- **It cuts the region into windows** when a vector has room for them. -/
theorem exists_pageWindows (hpage : pageBytes ≠ 0)
    (hfits : PageWindow.size * (totalBytes.toNat ⌈/⌉ pageBytes.toNat) ≤ w.isizeMax) :
    ∃ windows, (pageWindows w totalBytes pageBytes).run = some (.ok windows) ∧
      Cut PageWindow.start PageWindow.stop pageBytes.toNat 0 totalBytes.toNat windows := by
  obtain ⟨windows, hrun, hcut⟩ := pushWindows_cut hpage [] (UInt64.zero_le (a := totalBytes))
  exact ⟨windows, (run_pageWindows_of_fits hpage hfits).trans (congrArg some hrun), hcut⟩

example : (pageWindows .arm64V8a 10 4).run = some (.ok [⟨0, 4⟩, ⟨4, 4⟩, ⟨8, 2⟩]) := by
  decide +kernel

/-- **It answers exactly when a vector has room for the windows.** -/
theorem exists_pageWindows_iff (hpage : pageBytes ≠ 0) :
    (∃ windows, (pageWindows w totalBytes pageBytes).run = some (.ok windows)) ↔
      PageWindow.size * (totalBytes.toNat ⌈/⌉ pageBytes.toNat) ≤ w.isizeMax := by
  constructor
  · rintro ⟨windows, hrun⟩
    by_contra hfits
    rw [run_pageWindows hpage, if_pos (Nat.not_le.1 hfits)] at hrun
    split at hrun
    · exact nomatch Option.some.inj hrun
    · exact nomatch hrun
  · intro hfits
    obtain ⟨windows, hrun, -⟩ := exists_pageWindows hpage hfits
    exact ⟨windows, hrun⟩

/-- **The windows show the region once**: laid end to end from its first place to its last, none of
them empty, and only the last shorter than a page. -/
structure ShowsOnce (total page : ℕ) (windows : List PageWindow) : Prop where
  length_eq : windows.length = total ⌈/⌉ page
  head : ∀ window ∈ windows.head?, window.start = 0
  contiguous : windows.IsChain fun window next => window.stop = next.start
  last : ∀ window ∈ windows.getLast?, window.stop = total
  nonempty : ∀ window ∈ windows, 0 < window.len.toNat
  le_page : ∀ window ∈ windows, window.len.toNat ≤ page
  full : ∀ window ∈ windows.dropLast, window.len.toNat = page
  within : ∀ window ∈ windows, window.stop ≤ total
  once : ∀ place < total, ∃! k : Fin windows.length, place ∈ (windows.get k).places

theorem ShowsOnce.of_cut {total page : ℕ} {windows : List PageWindow} (hpage : 0 < page)
    (h : Cut PageWindow.start PageWindow.stop page 0 total windows) :
    ShowsOnce total page windows where
  length_eq := h.length_eq hpage
  head := (h.tiles hpage).head
  contiguous := (h.tiles hpage).isChain
  last := (h.tiles hpage).last
  nonempty window hmem :=
    Nat.pos_of_lt_add_right ((h.tiles hpage).between window hmem).2.1
  le_page window hmem := Nat.le_of_add_le_add_left (h.le_size window hmem)
  full window hmem := Nat.add_left_cancel (h.full window hmem)
  within window hmem := ((h.tiles hpage).between window hmem).2.2
  once place hplace := (h.tiles hpage).existsUnique ⟨place.zero_le, hplace⟩

/-! ## What the reader reads -/

/-- A region that answers as these bytes do, within them. -/
structure ByteRegion.Backed {R : Type} [ByteRegion R] (region : R) (bytes : Bytes) : Prop where
  len_eq : (ByteRegion.len region).toNat = bytes.length
  readRange_eq : ∀ offset len : UInt64, offset.toNat + len.toNat ≤ bytes.length →
    ByteRegion.readRange region offset len =
      some (bytes.extract offset.toNat (offset.toNat + len.toNat))

/-- **A slice answers as its bytes do**: no conversion of its offsets fails. -/
theorem SliceByteRegion.backed (bytes : ByteSlice w) : ByteRegion.Backed (new bytes) bytes.val := by
  have hlt : bytes.val.length < 2 ^ w.bits := bytes.property.trans_lt PointerWidth.isizeMax_lt
  have hlt64 : bytes.val.length < 2 ^ 64 := hlt.trans_le PointerWidth.two_pow_bits_le
  refine ⟨?_, fun offset len hwithin => ?_⟩
  · change (if bytes.val.length < 2 ^ 64 then UInt64.ofNat bytes.val.length
      else UInt64.ofNat (2 ^ 64 - 1)).toNat = _
    rw [if_pos hlt64, UInt64.toNat_ofNat_of_lt' hlt64]
  · have hstart : w.toUsize offset = some offset.toNat := PointerWidth.toUsize_of_lt (by omega)
    have hwidth : w.toUsize len = some len.toNat := PointerWidth.toUsize_of_lt (by omega)
    have hstop : w.checkedAdd offset.toNat len.toNat = some (offset.toNat + len.toNat) :=
      if_pos (by omega)
    have hget : get bytes.val offset.toNat (offset.toNat + len.toNat) =
        some (bytes.val.extract offset.toNat (offset.toNat + len.toNat)) :=
      if_pos ⟨Nat.le_add_right _ _, hwithin⟩
    simp only [ByteRegion.readRange, new, hstart, hwidth, hstop, hget, Option.bind_eq_bind,
      Option.bind_some]

namespace PagedByteReader

variable {R : Type} [ByteRegion R]

/-- **Read page by page**, a region is read whole. -/
theorem exists_pages {self : PagedByteReader R} {bytes : Bytes}
    (hbacked : ByteRegion.Backed self.region bytes)
    (htiles : Tiles PageWindow.start PageWindow.stop 0 bytes.length self.windows) :
    ∃ pages : List Bytes,
      (List.range self.pageCount).map self.page = pages.map some ∧ pages.flatten = bytes := by
  refine ⟨self.windows.map fun window => bytes.extract window.start window.stop, ?_, ?_⟩
  · refine List.ext_getElem (by simp [pageCount]) fun index hindex _ => ?_
    have hlt : index < self.windows.length := by simpa [pageCount] using hindex
    have hwithin := (htiles.between _ (List.getElem_mem hlt)).2.2
    rw [List.getElem_map, List.getElem_range, page, List.getElem?_eq_getElem hlt, List.getElem_map,
      List.getElem_map]
    exact hbacked.readRange_eq _ _ hwithin
  · rw [htiles.flatten_extract, List.extract_eq_take_drop, List.drop_zero, Nat.sub_zero,
      List.take_length]

/-- The region gets a reader, and the pages that it answers, put together, are these bytes. -/
def ReadsWhole (w : PointerWidth) (region : R) (pageBytes : UInt64) (bytes : Bytes) : Prop :=
  ∃ reader, (new w region pageBytes).run = some (.ok reader) ∧
    ∃ pages : List Bytes, (List.range reader.pageCount).map reader.page = pages.map some ∧
      pages.flatten = bytes

/-- **A region that answers as its bytes do** is read whole. -/
theorem readsWhole_of_backed {region : R} {bytes : Bytes} (hbacked : ByteRegion.Backed region bytes)
    (hpage : pageBytes ≠ 0)
    (hfits : PageWindow.size * (bytes.length ⌈/⌉ pageBytes.toNat) ≤ w.isizeMax) :
    ReadsWhole w region pageBytes bytes := by
  rw [← hbacked.len_eq] at hfits
  obtain ⟨windows, hrun, hcut⟩ := exists_pageWindows hpage hfits
  have hnew : (new w region pageBytes).run = some (.ok ⟨region, windows⟩) :=
    run_bind_eq_ok.2 ⟨windows, hrun, rfl⟩
  rw [hbacked.len_eq] at hcut
  exact ⟨⟨region, windows⟩, hnew, exists_pages hbacked (hcut.tiles (pageBytes_pos hpage))⟩

end PagedByteReader

open PagedByteReader

/-- **Paging shows a region once**, and a slice is read whole. -/
theorem paging_showsOnce (w : PointerWidth) (pageBytes : UInt64) (hpage : pageBytes ≠ 0) :
    (∀ totalBytes : UInt64,
      PageWindow.size * (totalBytes.toNat ⌈/⌉ pageBytes.toNat) ≤ w.isizeMax →
        ∃ windows, (pageWindows w totalBytes pageBytes).run = some (.ok windows) ∧
          ShowsOnce totalBytes.toNat pageBytes.toNat windows) ∧
    ∀ bytes : ByteSlice w,
      PageWindow.size * (bytes.val.length ⌈/⌉ pageBytes.toNat) ≤ w.isizeMax →
        ReadsWhole w (SliceByteRegion.new bytes) pageBytes bytes.val := by
  refine ⟨fun totalBytes hfits => ?_, fun bytes hfits => ?_⟩
  · obtain ⟨windows, hrun, hcut⟩ := exists_pageWindows hpage hfits
    exact ⟨windows, hrun, .of_cut (pageBytes_pos hpage) hcut⟩
  · exact readsWhole_of_backed (SliceByteRegion.backed bytes) hpage hfits

namespace Paging.Sample

def seven : ByteSlice .arm64V8a := ⟨[1, 2, 3, 4, 5, 6, 7], by decide⟩

/-- 128 MiB. -/
def zeros : ByteSlice .armeabiV7a :=
  ⟨List.replicate (2 ^ 27) 0, by rw [List.length_replicate]; decide⟩

theorem length_zeros : zeros.val.length = 2 ^ 27 := List.length_replicate

end Paging.Sample

open Paging.Sample

theorem paging_showsOnce_seven : (3 : UInt64) ≠ 0 ∧
    (∃ windows, (pageWindows .arm64V8a 7 3).run = some (.ok windows) ∧ ShowsOnce 7 3 windows) ∧
    ReadsWhole .arm64V8a (SliceByteRegion.new seven) 3 seven.val := by
  have hpage : (3 : UInt64) ≠ 0 := by decide
  have h := paging_showsOnce .arm64V8a 3 hpage
  exact ⟨hpage, h.1 7 (by decide), h.2 seven (by decide)⟩

/-- **A page count that fits a word may still panic**: no vector holds that many windows. -/
theorem not_paging_showsOnce :
    (¬ ∀ (w : PointerWidth) (totalBytes pageBytes : UInt64), pageBytes ≠ 0 →
      totalBytes.toNat ⌈/⌉ pageBytes.toNat < 2 ^ w.bits →
        ∃ windows, (pageWindows w totalBytes pageBytes).run = some (.ok windows) ∧
          ShowsOnce totalBytes.toNat pageBytes.toNat windows) ∧
    ¬ ∀ (w : PointerWidth) (bytes : ByteSlice w) (pageBytes : UInt64), pageBytes ≠ 0 →
      ReadsWhole w (SliceByteRegion.new bytes) pageBytes bytes.val := by
  have hpage : (1 : UInt64) ≠ 0 := by decide
  constructor
  · intro h
    obtain ⟨windows, hrun, -⟩ := h .arm64V8a 0xFFFFFFFFFFFFFFFF 1 hpage (by decide)
    exact absurd ((exists_pageWindows_iff hpage).1 ⟨windows, hrun⟩) (by decide)
  · intro h
    obtain ⟨reader, hnew, -⟩ := h .armeabiV7a zeros 1 hpage
    obtain ⟨windows, hrun, -⟩ := run_bind_eq_ok.1 hnew
    have hfits := (exists_pageWindows_iff hpage).1 ⟨windows, hrun⟩
    rw [(SliceByteRegion.backed zeros).len_eq, length_zeros] at hfits
    exact absurd hfits (by decide)

end NTD97
