import SpriteKernel.Lfs.SegClean
import Mathlib.Tactic.Ring

/- The summary blocks of a segment as a chain, and what the cleaner reads from one: the regions
   that are recorded in its blocks, in order. -/
namespace SpriteKernel.Lfs

open List

open Bytes

/-! ## A summary block -/

/-- The header and the bytes of a region are at `ptr`. -/
structure Header (b : Buffer) (ptr : Int) (r : Region) : Prop where
  moduleType : half b ptr = r.moduleType
  lengthInBytes : half b (ptr + 2) = segSummaryHdrSize.toNat + r.bytes.length
  numDataBlocks : int b (ptr + 4) = r.numDataBlocks
  bytes : bytesFrom b (ptr + segSummaryHdrSize) r.bytes.length = r.bytes

def Region.length (r : Region) : Int := segSummaryHdrSize + r.bytes.length

/-- Regions behind each other from `ptr` on, with their data from the block offset `off` on. -/
def Headers (b : Buffer) : Int → Int → List Region → Prop
  | _, _, [] => True
  | ptr, off, r :: rs => Header b ptr r ∧ r.startOffset = off ∧ Headers b (ptr + r.length) (off + r.numDataBlocks) rs

def lengthOf (rs : List Region) : Int := (rs.map Region.length).sum

def blocksOf (rs : List Region) : Int := (rs.map Region.numDataBlocks).sum

theorem length_pos (r : Region) : 8 ≤ r.length := Int.le_add_of_nonneg_right (Int.natCast_nonneg _)

theorem lengthOf_nonneg (rs : List Region) : 0 ≤ lengthOf rs := by
  induction rs with
  | nil => exact Int.le_refl _
  | cons r rs ih =>
    have hpos := length_pos r
    have hcons : lengthOf (r :: rs) = r.length + lengthOf rs := rfl
    omega

theorem lengthOf_append (rs rs' : List Region) : lengthOf (rs ++ rs') = lengthOf rs + lengthOf rs' := by
  rw [lengthOf, map_append, sum_append, lengthOf, lengthOf]

theorem blocksOf_append (rs rs' : List Region) : blocksOf (rs ++ rs') = blocksOf rs + blocksOf rs' := by
  rw [blocksOf, map_append, sum_append, blocksOf, blocksOf]

variable {b : Buffer} {ptr : Int} {c : Buffer}

theorem Header.congr {r : Region} (h : Header b ptr r)
    (heq : ∀ k, ptr ≤ k → k < ptr + r.length → c k = b k) : Header c ptr r := by
  have hlen : r.length = 8 + r.bytes.length := rfl
  have hsize : segSummaryHdrSize = 8 := rfl
  refine ⟨?_, ?_, ?_, ?_⟩
  · rw [half_congr (fun k h1 h2 => heq k (by omega) (by omega)), h.moduleType]
  · rw [half_congr (fun k h1 h2 => heq k (by omega) (by omega)), h.lengthInBytes]
  · rw [int_congr (fun k h1 h2 => heq k (by omega) (by omega)), h.numDataBlocks]
  · rw [bytesFrom_congr (fun k h1 h2 => heq k (by omega) (by omega)), h.bytes]

variable {off : Int} {rs : List Region}

theorem Headers.congr (h : Headers b ptr off rs)
    (heq : ∀ k, ptr ≤ k → k < ptr + lengthOf rs → c k = b k) : Headers c ptr off rs := by
  induction rs generalizing ptr off with
  | nil => trivial
  | cons r rs ih =>
    obtain ⟨hr, hoff, hrs⟩ := h
    have hcons : lengthOf (r :: rs) = r.length + lengthOf rs := rfl
    have hnonneg := lengthOf_nonneg rs
    have hpos := length_pos r
    exact ⟨hr.congr (fun k h1 h2 => heq k h1 (by omega)), hoff, ih hrs (fun k h1 h2 => heq k (by omega) (by omega))⟩

theorem Headers.tail {i : Int} (h : Headers (Bytes.tail i b) ptr off rs) : Headers b (i + ptr) off rs := by
  induction rs generalizing ptr off with
  | nil => trivial
  | cons r rs ih =>
    obtain ⟨hr, hoff, hrs⟩ := h
    have hrest := ih hrs
    rw [← Int.add_assoc] at hrest
    refine ⟨⟨?_, ?_, ?_, ?_⟩, hoff, hrest⟩
    · rw [← half_tail, hr.moduleType]
    · rw [Int.add_assoc, ← half_tail, hr.lengthInBytes]
    · rw [Int.add_assoc, ← int_tail, hr.numDataBlocks]
    · rw [Int.add_assoc, ← bytesFrom_tail, hr.bytes]

variable {rs' : List Region}

theorem Headers.append (h : Headers b ptr off rs)
    (h' : Headers b (ptr + lengthOf rs) (off + blocksOf rs) rs') : Headers b ptr off (rs ++ rs') := by
  induction rs generalizing ptr off with
  | nil =>
    have hzero : Headers b (ptr + 0) (off + 0) rs' := h'
    rw [Int.add_zero, Int.add_zero] at hzero
    exact hzero
  | cons r rs ih =>
    obtain ⟨hr, hoff, hrs⟩ := h
    refine ⟨hr, hoff, ih hrs ?_⟩
    have hcons : Headers b (ptr + (r.length + lengthOf rs)) (off + (r.numDataBlocks + blocksOf rs)) rs' := h'
    rw [← Int.add_assoc, ← Int.add_assoc] at hcons
    exact hcons

/-- The summary block at a block offset is finished: it records the regions and names the next. -/
structure Summary (p : SuperBlock) (b : Buffer) (off : Int) (rs : List Region) (next : Int) : Prop where
  magic : word b 0 = segSummaryMagic
  size : int b 16 = segSummarySize + lengthOf rs
  next : int b 20 = next
  headers : Headers b segSummarySize off rs
  fits : segSummarySize + lengthOf rs ≤ p.blockSize

/-! ## A chain -/

/-- From the summary at one offset the next pointers lead to another; the blocks before record the regions. -/
inductive Leads (p : SuperBlock) (image : SegImage) : Int → List Region → Int → Prop where
  | here (o : Int) : Leads p image o [] o
  | next {o o' o'' : Int} {rs rs' : List Region} : Summary p (image o) o rs o' → o < o' → o' ≤ p.segSizeInBlocks →
      Leads p image o' rs' o'' → Leads p image o (rs ++ rs') o''

variable {p : SuperBlock} {image : SegImage} {o o' o'' : Int}

theorem Leads.le (h : Leads p image o rs o') : o ≤ o' := by
  induction h with
  | here => exact Int.le_refl _
  | next _ hlt _ _ ih => omega

theorem Leads.eq_nil (h : Leads p image o rs o) : rs = [] := by
  cases h with
  | here => rfl
  | next _ hlt _ hrest =>
    have hle := hrest.le
    omega

section
variable (h : Leads p image o rs o')
include h

theorem Leads.trans (h' : Leads p image o' rs' o'') : Leads p image o (rs ++ rs') o'' := by
  induction h with
  | here => exact h'
  | next hsum hlt hle _ ih =>
    rw [append_assoc]
    exact .next hsum hlt hle (ih h')

theorem Leads.snoc (hsum : Summary p (image o') o' rs' o'') (hlt : o' < o'') (hle : o'' ≤ p.segSizeInBlocks) :
    Leads p image o (rs ++ rs') o'' := by
  have hlast : Leads p image o' (rs' ++ []) o'' := .next hsum hlt hle (.here o'')
  rw [append_nil] at hlast
  exact h.trans hlast

theorem Leads.congr {image' : SegImage}
    (heq : ∀ i, i < o' → image' i = image i) : Leads p image' o rs o' := by
  induction h with
  | here => exact .here _
  | next hsum hlt hle hrest ih =>
    refine .next ?_ hlt hle (ih heq)
    rw [heq _ (Int.lt_of_lt_of_le hlt hrest.le)]
    exact hsum

end

def Chain (p : SuperBlock) (image : SegImage) (regions : List Region) : Prop :=
  ∃ last rs rs', Leads p image 1 rs last ∧ last ≤ p.segSizeInBlocks ∧ Summary p (image last) last rs' (-1) ∧ regions = rs ++ rs'

/-! ## Reading -/

/-- Segments are whole blocks, a block has room for a header, and its length fits in one. -/
structure SuperBlock.Summaries (p : SuperBlock) : Prop where
  whole : p.segmentSize = p.segSizeInBlocks * p.blockSize
  room : segSummarySize + segSummaryHdrSize ≤ p.blockSize
  short : p.blockSize ≤ 65536
  blocks : 2 ≤ p.segSizeInBlocks
  ints : p.segSizeInBlocks < 2147483648

section
variable {p : SuperBlock} {σ : Type} (clean : σ → Region → Bool × σ)

theorem read_fetched (hp : p.Summaries) (image : SegImage) (o : Int) {k : Int} (h0 : 0 ≤ k) (hk : k < p.blockSize) :
    tail (p.segFetchBytes o) (image.read p) k = image o k := by
  have haddr : p.segFetchBytes o + k = k + (p.segSizeInBlocks - o) * p.blockSize := by
    rw [SuperBlock.segFetchBytes, hp.whole, blocksToBytes_eq]
    ring
  have hdiv : (p.segFetchBytes o + k) / p.blockSize = p.segSizeInBlocks - o := by
    rw [haddr, Int.add_mul_ediv_right _ _ (by omega), Int.ediv_eq_zero_of_lt h0 hk, Int.zero_add]
  have hmod : (p.segFetchBytes o + k) % p.blockSize = k := by
    rw [haddr, Int.add_mul_emod_self_right, Int.emod_eq_of_lt h0 hk]
  show image (p.segSizeInBlocks - (p.segFetchBytes o + k) / p.blockSize) ((p.segFetchBytes o + k) % p.blockSize) = image o k
  rw [hdiv, hmod, Int.sub_sub_self]

variable {mem : Buffer} {rs : List Region}

theorem cleanHeaders_headers (h : Headers mem ptr off rs) (s : σ) :
    cleanHeaders clean mem ptr (ptr + lengthOf rs) off s = visit clean rs s := by
  induction rs generalizing ptr off s with
  | nil =>
    rw [cleanHeaders, dif_neg]
    · rfl
    · show ¬(ptr < ptr + 0 ∧ _)
      omega
  | cons r rs ih =>
    obtain ⟨hr, rfl, hrs⟩ := h
    have hcons : lengthOf (r :: rs) = r.length + lengthOf rs := rfl
    have hnonneg := lengthOf_nonneg rs
    have hlen := hr.lengthInBytes
    have hsize : segSummaryHdrSize.toNat = 8 := rfl
    have hregion : regionAt mem ptr r.startOffset = r := by
      rw [regionAt, hr.moduleType, hlen, Nat.add_sub_cancel_left, hr.bytes, hr.numDataBlocks]
    have hnext : ptr + (half mem (ptr + 2) : Int) = ptr + r.length := by
      rw [hlen]
      rfl
    rw [cleanHeaders, dif_pos ⟨by omega, by omega⟩, visit]
    simp only [hregion, hnext, hr.numDataBlocks]
    obtain ⟨error, s'⟩ := clean s r
    cases error with
    | true => rfl
    | false =>
      rw [hcons, ← Int.add_assoc]
      exact ih hrs s'

variable {image : SegImage} {room : Nat}

theorem Summary.fetched (hp : p.Summaries) {o next : Int} (h : Summary p (image o) o rs next) :
    word (image.read p) (p.segFetchBytes o) = segSummaryMagic ∧
      int (image.read p) (p.segFetchBytes o + 16) = segSummarySize + lengthOf rs ∧
      int (image.read p) (p.segFetchBytes o + 20) = next ∧
      Headers (image.read p) (p.segFetchBytes o + segSummarySize) o rs := by
  have hsize : segSummarySize = 24 := rfl
  have hnonneg := lengthOf_nonneg rs
  have hfits := h.fits
  have hsame : ∀ k, 0 ≤ k → k < p.blockSize → tail (p.segFetchBytes o) (image.read p) k = image o k :=
    fun k h0 hk => read_fetched hp image o h0 hk
  refine ⟨?_, ?_, ?_, ?_⟩
  · rw [← Int.add_zero (p.segFetchBytes o), ← word_tail, word_congr (fun k h1 h2 => hsame k h1 (by omega)), h.magic]
  · rw [← int_tail, int_congr (fun k h1 h2 => hsame k (by omega) (by omega)), h.size]
  · rw [← int_tail, int_congr (fun k h1 h2 => hsame k (by omega) (by omega)), h.next]
  · exact (h.headers.congr (fun k h1 h2 => hsame k (by omega) (by omega))).tail

theorem summaryElements_last {prevSegSum segSum : Int}
    (hmagic : word mem segSum = segSummaryMagic) (hnext : int mem (segSum + 20) = -1) :
    summaryElements p room prevSegSum segSum mem = some ([segSum], mem) := by
  unfold summaryElements
  rw [if_neg (not_not.mpr hmagic), if_pos hnext]

theorem summaryElements_next {prevSegSum segSum next : Int}
    (hmagic : word mem segSum = segSummaryMagic) (hnext : int mem (segSum + 20) = next) (h0 : 0 ≤ next)
    (hle : next ≤ p.bytesToBlocks p.segmentSize) :
    summaryElements p (room + 1) prevSegSum segSum mem =
      (summaryElements p room segSum (p.segFetchBytes next) mem).map (fun (elements, mem) => (segSum :: elements, mem)) := by
  rw [summaryElements]
  rw [if_neg (not_not.mpr hmagic), hnext, if_neg (by omega)]
  rw [if_neg (by omega)]

theorem Leads.read (hp : p.Summaries) {o last : Int} (h : Leads p image o rs last)
    (hsum : Summary p (image last) last rs' (-1)) (hlast : last ≤ p.segSizeInBlocks) (ho : 0 ≤ o) (room : Nat)
    (hroom : last - o ≤ room) (prevSegSum : Int) :
    ∃ elements, summaryElements p room prevSegSum (p.segFetchBytes o) (image.read p) =
        some (p.segFetchBytes o :: elements, image.read p) ∧
      ∀ s, cleanSummaries clean (image.read p) (p.segFetchBytes o) elements o s = some (visit clean (rs ++ rs') s) := by
  induction h generalizing room prevSegSum with
  | here o =>
    obtain ⟨hmagic, hsize, hnext, hheaders⟩ := hsum.fetched hp
    refine ⟨[], ?_, ?_⟩
    · exact summaryElements_last hmagic hnext
    · intro s
      rw [cleanSummaries, hsize, ← Int.add_assoc, cleanHeaders_headers clean hheaders s, nil_append]
      simp only [hnext, if_true]
      obtain ⟨error, s'⟩ := visit clean rs' s
      cases error with
      | true => rfl
      | false => rfl
  | @next o o' _ rs _ hhere hlt hle hrest ih =>
    have hlater := hrest.le
    have hpos : 0 ≤ o' := by omega
    have hmore : ¬o' = -1 := by omega
    obtain ⟨room, rfl⟩ : ∃ n, room = n + 1 := ⟨room - 1, by omega⟩
    obtain ⟨elements, helements, hclean⟩ := ih hsum hlast hpos room (by omega) (p.segFetchBytes o)
    obtain ⟨hmagic, hsize, hnext, hheaders⟩ := hhere.fetched hp
    refine ⟨p.segFetchBytes o' :: elements, ?_, ?_⟩
    · have hblocks : o' ≤ p.bytesToBlocks p.segmentSize := by
        rw [hp.whole, bytesToBlocks_mul]
        exact hle
      rw [summaryElements_next hmagic hnext hpos hblocks, helements]
      rfl
    · intro s
      rw [cleanSummaries, hsize, ← Int.add_assoc, cleanHeaders_headers clean hheaders s, append_assoc, visit_append]
      simp only [hnext, hmore, if_false]
      obtain ⟨error, s'⟩ := visit clean rs s
      cases error with
      | true => rfl
      | false =>
        exact hclean s'

theorem Chain.read (hp : p.Summaries) {regions : List Region} (h : Chain p image regions) (s : σ) :
    cleanSegment clean p image s = some (visit clean regions s) := by
  obtain ⟨last, rs, rs', hleads, hlast, hsum, rfl⟩ := h
  have hblocks : p.bytesToBlocks p.segmentSize = p.segSizeInBlocks := by rw [hp.whole, bytesToBlocks_mul]
  have hfirst : p.segmentSize - p.blockSize = p.segFetchBytes 1 := by
    rw [SuperBlock.segFetchBytes, blocksToBytes_eq, Int.one_mul]
  obtain ⟨elements, helements, hclean⟩ := hleads.read clean hp hsum hlast (by omega)
    (p.bytesToBlocks p.segmentSize).toNat (by omega) (p.segmentSize - p.blockSize)
  rw [cleanSegment, createSegmentToClean, hfirst]
  rw [hfirst] at helements
  rw [helements]
  exact hclean s

end

end SpriteKernel.Lfs
