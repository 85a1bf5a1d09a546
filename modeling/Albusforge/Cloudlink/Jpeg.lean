import Albusforge.Lib.Cursor
import Albusforge.Lib.Disk

/-!
# The framing of a JPEG

`framed` walks an upload from marker to marker before any decoder sees it. The strings it accepts
are the bytes of an `Image`: a start marker, segments that carry their own lengths, after each start
of a scan the coded bytes with their escapes, and an end marker with nothing behind it
(`framed_iff`). What follows the end marker decides by itself (`framed_bytes`), so that an accepted
string is never the beginning of another.
-/

namespace Albusforge.Cloudlink

open Lib

/-! ## The walk -/

def readUInt16BE (bytes : Bytes) (offset : ℕ) : ℕ :=
  (bytes.getD offset 0).toNat * 256 + (bytes.getD (offset + 1) 0).toNat

/-- `marker >= 0xd0 && marker <= 0xd7` -/
def isRestart (marker : UInt8) : Bool := 0xd0 ≤ marker && marker ≤ 0xd7

/-- `while (offset < bytes.length && bytes[offset] !== 0xff) offset++` -/
def skipData (bytes : Bytes) (offset : ℕ) : ℕ :=
  if offset < bytes.length ∧ bytes[offset]? ≠ some 0xff then skipData bytes (offset + 1) else offset
termination_by bytes.length - offset

/-- `while (bytes[offset] === 0xff) offset++` -/
def skipFill (bytes : Bytes) (offset : ℕ) : ℕ :=
  if h : bytes[offset]? = some 0xff then
    have := lt_of_getElem? h
    skipFill bytes (offset + 1)
  else offset
termination_by bytes.length - offset

theorem le_skipData (bytes : Bytes) (offset : ℕ) : offset ≤ skipData bytes offset := by
  fun_induction skipData bytes offset with
  | case1 offset h ih => omega
  | case2 offset h => omega

theorem le_skipFill (bytes : Bytes) (offset : ℕ) : offset ≤ skipFill bytes offset := by
  fun_induction skipFill bytes offset with
  | case1 offset h hlt ih => omega
  | case2 offset h => omega

/-- In a scan the walk goes on at the next `0xff`. -/
def skipScan (bytes : Bytes) (offset : ℕ) (scan : Bool) : ℕ :=
  if scan then skipData bytes offset else offset

theorem lt_skipFill (bytes : Bytes) (offset : ℕ) (scan : Bool) :
    offset < skipFill bytes (skipScan bytes offset scan + 1) := by
  have hfill := le_skipFill bytes (skipScan bytes offset scan + 1)
  have hdata : offset ≤ skipScan bytes offset scan := by
    unfold skipScan
    split
    · exact le_skipData bytes offset
    · exact Nat.le_refl _
  omega

/-- The loop of `framed`, from one offset on. Every round consumes a marker, so it ends. -/
def walk (bytes : Bytes) (offset : ℕ) (scan : Bool) : Bool :=
  if offset < bytes.length then
    if bytes[skipScan bytes offset scan]? ≠ some 0xff then false
    else
      let mark := skipFill bytes (skipScan bytes offset scan + 1)
      match bytes[mark]? with
      | none => false
      | some marker =>
        if scan && (marker = 0 || isRestart marker) then walk bytes (mark + 1) scan
        else if marker = 0xd9 then mark + 1 = bytes.length
        else if marker = 0xd8 || marker = 0 || marker = 1 || isRestart marker then false
        else if mark + 1 + 2 > bytes.length then false
        else
          let length := readUInt16BE bytes (mark + 1)
          if length < 2 || mark + 1 + length > bytes.length then false
          else walk bytes (mark + 1 + length) (marker = 0xda)
  else false
termination_by bytes.length - offset
decreasing_by
  all_goals
    have := lt_skipFill bytes offset scan
    omega

def framed (bytes : Bytes) : Bool :=
  if bytes.length < 4 || readUInt16BE bytes 0 ≠ 0xffd8 then false else walk bytes 2 false

/-! ## What a framed image is -/

def marked (fill : ℕ) (marker : UInt8) : Bytes := 0xff :: (List.replicate fill 0xff ++ [marker])

inductive Coded
  | byte (b : UInt8) (plain : b ≠ 0xff)
  | stuffed (fill : ℕ)
  | restart (fill : ℕ) (marker : UInt8) (restarts : isRestart marker = true)

def Coded.bytes : Coded → Bytes
  | .byte b _ => [b]
  | .stuffed fill => marked fill 0
  | .restart fill marker _ => marked fill marker

/-- The markers of segments: all but fill, stuffed zero, `TEM`, `RSTn`, `SOI` and `EOI`. -/
def isSegment (marker : UInt8) : Bool :=
  !(marker = 0xff || marker = 0 || marker = 1 || isRestart marker || marker = 0xd8 || marker = 0xd9)

/-- A segment, and what is coded after it if it starts a scan. -/
@[ext]
structure Segment where
  fill : ℕ
  marker : UInt8
  payload : Bytes
  coded : List Coded
  isSegment : isSegment marker = true
  fits : payload.length + 2 < 65536
  scans : marker ≠ 0xda → coded = []

def uint16BE (n : ℕ) : Bytes := [UInt8.ofNat (n / 256), UInt8.ofNat n]

def Segment.bytes (s : Segment) : Bytes :=
  marked s.fill s.marker ++ uint16BE (s.payload.length + 2) ++ s.payload ++ s.coded.flatMap Coded.bytes

structure Image where
  segments : List Segment
  fill : ℕ

def Image.rest (i : Image) : Bytes := i.segments.flatMap Segment.bytes ++ marked i.fill 0xd9

def Image.bytes (i : Image) : Bytes := 0xff :: 0xd8 :: i.rest

/-! ## One round of the walk -/

theorem skipData_stop {bytes : Bytes} {offset : ℕ} (h : bytes[offset]? = some 0xff) :
    skipData bytes offset = offset := by
  rw [skipData, if_neg fun hgo => hgo.2 h]

theorem skipData_step {bytes : Bytes} {offset : ℕ} {b : UInt8} (h : bytes[offset]? = some b) (hb : b ≠ 0xff) :
    skipData bytes offset = skipData bytes (offset + 1) := by
  rw [skipData, if_pos ⟨lt_of_getElem? h, by rw [h]; simpa using hb⟩]

theorem skipFill_replicate {bytes rest : Bytes} {marker : UInt8} (hmarker : marker ≠ 0xff) {fill : ℕ} :
    ∀ {offset : ℕ}, bytes.drop offset = List.replicate fill 0xff ++ marker :: rest →
      skipFill bytes offset = offset + fill := by
  induction fill with
  | zero =>
    intro offset h
    have hend : ¬ bytes[offset]? = some 0xff := by
      rw [getElem?_of_drop h]
      simpa using hmarker
    rw [skipFill, dif_neg hend, Nat.add_zero]
  | succ fill ih =>
    intro offset h
    rw [List.replicate_succ, List.cons_append] at h
    rw [skipFill, dif_pos (getElem?_of_drop h), ih (drop_succ h)]
    omega

section Rounds

variable {bytes rest : Bytes} {offset fill : ℕ} {marker : UInt8} {scan : Bool}

structure Reaches (bytes : Bytes) (offset fill : ℕ) (marker : UInt8) (scan : Bool) (rest : Bytes) : Prop where
  inside : offset < bytes.length
  start : bytes[skipScan bytes offset scan]? = some 0xff
  mark : skipFill bytes (skipScan bytes offset scan + 1) = offset + fill + 1
  marker : bytes[offset + fill + 1]? = some marker
  rest : bytes.drop (offset + fill + 2) = rest

theorem reaches (h : bytes.drop offset = marked fill marker ++ rest) (hmarker : marker ≠ 0xff) :
    Reaches bytes offset fill marker scan rest := by
  have hfirst : bytes[offset]? = some 0xff := getElem?_of_drop h
  have hstart : skipScan bytes offset scan = offset := by
    unfold skipScan
    split
    · exact skipData_stop hfirst
    · rfl
  have hfill : bytes.drop (offset + 1) = List.replicate fill 0xff ++ marker :: rest := by
    simpa using drop_succ h
  have hmark : bytes.drop (offset + 1 + fill) = marker :: rest := by
    simpa using drop_add hfill
  have hshift : offset + fill + 1 = offset + 1 + fill := by omega
  refine ⟨lt_of_getElem? hfirst, by rw [hstart, hfirst], ?_, ?_, ?_⟩
  · rw [hstart, skipFill_replicate hmarker hfill, hshift]
  · rw [hshift]
    exact getElem?_of_drop hmark
  · rw [show offset + fill + 2 = offset + 1 + fill + 1 by omega]
    exact drop_succ hmark

theorem walk_byte {b : UInt8} (h : bytes.drop offset = b :: rest) (hb : b ≠ 0xff) :
    walk bytes offset true = walk bytes (offset + 1) true := by
  have hfirst := getElem?_of_drop h
  have hskip : skipScan bytes offset true = skipScan bytes (offset + 1) true := skipData_step hfirst hb
  by_cases hnext : offset + 1 < bytes.length
  · rw [walk, walk, if_pos (lt_of_getElem? hfirst), if_pos hnext, hskip]
  · have hend : bytes[skipScan bytes offset true]? = none := by
      rw [List.getElem?_eq_none_iff, hskip]
      exact Nat.le_trans (Nat.le_of_not_lt hnext) (le_skipData bytes (offset + 1))
    rw [walk, walk, if_pos (lt_of_getElem? hfirst), if_neg hnext, hend, if_pos (by simp)]

theorem walk_escape (h : bytes.drop offset = marked fill marker ++ rest)
    (hescape : (marker = 0 || isRestart marker) = true) :
    walk bytes offset true = walk bytes (offset + fill + 2) true := by
  have hmarker : marker ≠ 0xff := by
    intro hff
    simp [hff, isRestart] at hescape
  have hat : Reaches bytes offset fill marker true rest := reaches h hmarker
  rw [walk, if_pos hat.inside, hat.start, if_neg (by simp)]
  dsimp only
  rw [hat.mark, hat.marker]
  dsimp only
  rw [if_pos (by simpa using hescape)]

theorem walk_end (h : bytes.drop offset = marked fill 0xd9 ++ rest) :
    walk bytes offset scan = decide (rest = []) := by
  have hat : Reaches bytes offset fill 0xd9 scan rest := reaches h (by decide)
  have hlength : bytes.length = offset + fill + 2 + rest.length := by
    have hdrop := congrArg List.length hat.rest
    have hlt := lt_of_getElem? hat.marker
    rw [List.length_drop] at hdrop
    omega
  rw [walk, if_pos hat.inside, hat.start, if_neg (by simp)]
  dsimp only
  rw [hat.mark, hat.marker]
  dsimp only
  rw [if_neg (by simp [isRestart]), if_pos rfl, hlength, decide_eq_decide, ← List.length_eq_zero_iff]
  omega

theorem readUInt16BE_eq {n : ℕ} (h : bytes.drop offset = uint16BE n ++ rest) (hn : n < 65536) :
    readUInt16BE bytes offset = n := by
  have hlow : bytes.drop (offset + 1) = UInt8.ofNat n :: rest := drop_succ h
  rw [readUInt16BE, List.getD_eq_getElem?_getD, List.getD_eq_getElem?_getD, getElem?_of_drop h,
    getElem?_of_drop hlow]
  simp only [Option.getD_some, UInt8.toNat_ofNat']
  omega

theorem walk_segment {payload : Bytes}
    (h : bytes.drop offset = marked fill marker ++ (uint16BE (payload.length + 2) ++ payload ++ rest))
    (hmarker : isSegment marker = true) (hfits : payload.length + 2 < 65536) :
    walk bytes offset scan = walk bytes (offset + fill + 4 + payload.length) (marker = 0xda) := by
  simp only [isSegment, Bool.not_eq_true', Bool.or_eq_false_iff, decide_eq_false_iff_not] at hmarker
  obtain ⟨⟨⟨⟨⟨hff, hzero⟩, htem⟩, hrestart⟩, hsoi⟩, heoi⟩ := hmarker
  have hat : Reaches bytes offset fill marker scan _ := reaches h hff
  have hlength := readUInt16BE_eq (List.append_assoc _ _ _ ▸ hat.rest) hfits
  have hbytes : bytes.length = offset + fill + 4 + payload.length + rest.length := by
    have hdrop := congrArg List.length hat.rest
    have hlt := lt_of_getElem? hat.marker
    simp only [List.length_drop, List.length_append, uint16BE, List.length_cons, List.length_nil] at hdrop
    omega
  rw [walk, if_pos hat.inside, hat.start, if_neg (by simp)]
  dsimp only
  rw [hat.mark, hat.marker]
  dsimp only
  rw [if_neg (by simp [hzero, hrestart]), if_neg heoi, if_neg (by simp [hsoi, hzero, htem, hrestart]),
    if_neg (by omega), hlength, if_neg (by simp; omega)]
  congr 1
  omega

end Rounds

/-! ## The bytes of an image are walked through -/

theorem walk_coded {coded : List Coded} {bytes rest : Bytes} : ∀ {offset : ℕ},
    bytes.drop offset = coded.flatMap Coded.bytes ++ rest →
      ∃ offset', bytes.drop offset' = rest ∧ walk bytes offset true = walk bytes offset' true := by
  induction coded with
  | nil => exact fun h => ⟨_, h, rfl⟩
  | cons c coded ih =>
    intro offset h
    rw [List.flatMap_cons, List.append_assoc] at h
    cases c with
    | byte b plain =>
      obtain ⟨offset', hrest, hwalk⟩ := ih (drop_succ h)
      exact ⟨offset', hrest, (walk_byte h plain).trans hwalk⟩
    | stuffed fill =>
      have hat : Reaches bytes offset fill 0 true _ := reaches h (by decide)
      obtain ⟨offset', hrest, hwalk⟩ := ih hat.rest
      exact ⟨offset', hrest, (walk_escape h rfl).trans hwalk⟩
    | restart fill marker restarts =>
      have hmarker : marker ≠ 0xff := by
        intro hff
        simp [hff, isRestart] at restarts
      have hat : Reaches bytes offset fill marker true _ := reaches h hmarker
      obtain ⟨offset', hrest, hwalk⟩ := ih hat.rest
      exact ⟨offset', hrest, (walk_escape h (by rw [restarts, Bool.or_true])).trans hwalk⟩

theorem walk_rest {segments : List Segment} {fill : ℕ} {bytes rest : Bytes} : ∀ {offset : ℕ} {scan : Bool},
    bytes.drop offset = Image.rest ⟨segments, fill⟩ ++ rest → walk bytes offset scan = decide (rest = []) := by
  induction segments with
  | nil => exact fun h => walk_end h
  | cons s segments ih =>
    intro offset scan h
    have hsegment : bytes.drop offset = marked s.fill s.marker ++ (uint16BE (s.payload.length + 2) ++ s.payload ++
        (s.coded.flatMap Coded.bytes ++ (Image.rest ⟨segments, fill⟩ ++ rest))) := by
      rw [h]
      simp [Image.rest, Segment.bytes]
    have hafter : bytes.drop (offset + s.fill + 4 + s.payload.length) =
        s.coded.flatMap Coded.bytes ++ (Image.rest ⟨segments, fill⟩ ++ rest) := by
      have hlength : offset + s.fill + 4 + s.payload.length = offset +
          (marked s.fill s.marker ++ (uint16BE (s.payload.length + 2) ++ s.payload)).length := by
        simp [marked, uint16BE]
        omega
      rw [hlength]
      exact drop_add (by simpa using hsegment)
    rw [walk_segment hsegment s.isSegment s.fits]
    -- only a scan has anything coded
    by_cases hscan : s.marker = 0xda
    · obtain ⟨offset', hrest, hwalk⟩ := walk_coded hafter
      rw [decide_eq_true hscan, hwalk]
      exact ih hrest
    · rw [s.scans hscan] at hafter
      exact ih hafter

theorem framed_bytes (i : Image) (more : Bytes) : framed (i.bytes ++ more) = decide (more = []) := by
  have hlong : ¬ (i.bytes ++ more).length < 4 := by
    simp [Image.bytes, Image.rest, marked]
    omega
  have hstart : readUInt16BE (i.bytes ++ more) 0 = 0xffd8 := by
    simp [Image.bytes, readUInt16BE]
  rw [framed, hstart, if_neg (by rw [decide_eq_false hlong]; decide)]
  exact walk_rest rfl

/-! ## What is accepted is an image -/

theorem skipData_split (bytes : Bytes) (offset : ℕ) :
    ∃ coded : List Coded, bytes.drop offset = coded.flatMap Coded.bytes ++ bytes.drop (skipData bytes offset) := by
  fun_induction skipData bytes offset with
  | case1 offset h ih =>
    obtain ⟨coded, hcoded⟩ := ih
    have hne : bytes[offset] ≠ 0xff := by simpa [h.1] using h.2
    exact ⟨.byte _ hne :: coded, by rw [List.drop_eq_getElem_cons h.1, hcoded]; rfl⟩
  | case2 offset h => exact ⟨[], rfl⟩

theorem skipFill_split (bytes : Bytes) (offset : ℕ) :
    bytes[skipFill bytes offset]? ≠ some 0xff ∧
      ∃ fill, bytes.drop offset = List.replicate fill 0xff ++ bytes.drop (skipFill bytes offset) := by
  fun_induction skipFill bytes offset with
  | case1 offset h hlt ih =>
    obtain ⟨hne, fill, hfill⟩ := ih
    refine ⟨hne, fill + 1, ?_⟩
    have hbyte : bytes[offset] = 0xff := by simpa [hlt] using h
    rw [List.drop_eq_getElem_cons hlt, hfill, hbyte, List.replicate_succ, List.cons_append]
  | case2 offset h => exact ⟨h, 0, rfl⟩

theorem marker_split {bytes : Bytes} {offset : ℕ} {scan : Bool} {marker : UInt8}
    (hstart : bytes[skipScan bytes offset scan]? = some 0xff)
    (hmarker : bytes[skipFill bytes (skipScan bytes offset scan + 1)]? = some marker) :
    marker ≠ 0xff ∧ ∃ (coded : List Coded) (fill : ℕ), (scan = false → coded = []) ∧
      bytes.drop offset = coded.flatMap Coded.bytes ++ (marked fill marker ++
        bytes.drop (skipFill bytes (skipScan bytes offset scan + 1) + 1)) := by
  obtain ⟨hne, fill, hfill⟩ := skipFill_split bytes (skipScan bytes offset scan + 1)
  have hcoded : ∃ coded : List Coded, (scan = false → coded = []) ∧
      bytes.drop offset = coded.flatMap Coded.bytes ++ bytes.drop (skipScan bytes offset scan) := by
    cases scan with
    | false => exact ⟨[], fun _ => rfl, rfl⟩
    | true =>
      obtain ⟨coded, hcoded⟩ := skipData_split bytes offset
      exact ⟨coded, nofun, hcoded⟩
  obtain ⟨coded, hclosed, hcoded⟩ := hcoded
  refine ⟨fun hff => hne (hff ▸ hmarker), coded, fill, hclosed, ?_⟩
  rw [hcoded, drop_of_getElem? hstart, hfill, drop_of_getElem? hmarker]
  simp [marked]

theorem uint16BE_read {bytes : Bytes} {offset : ℕ} (h : offset + 2 ≤ bytes.length) :
    bytes.drop offset = uint16BE (readUInt16BE bytes offset) ++ bytes.drop (offset + 2) ∧
      readUInt16BE bytes offset < 65536 := by
  have hhigh : bytes[offset]? = some bytes[offset] := List.getElem?_eq_getElem (by omega)
  have hlow : bytes[offset + 1]? = some bytes[offset + 1] := List.getElem?_eq_getElem (by omega)
  have hhighlt := bytes[offset].toNat_lt
  have hlowlt := bytes[offset + 1].toNat_lt
  have hread : readUInt16BE bytes offset = bytes[offset].toNat * 256 + bytes[offset + 1].toNat := by
    rw [readUInt16BE, List.getD_eq_getElem?_getD, List.getD_eq_getElem?_getD, hhigh, hlow]
    rfl
  rw [hread]
  refine ⟨?_, by omega⟩
  rw [drop_of_getElem? hhigh, drop_of_getElem? hlow, uint16BE]
  simp only [List.cons_append, List.nil_append, List.cons.injEq, and_true, ← UInt8.toNat_inj, UInt8.toNat_ofNat']
  omega

theorem walk_image {bytes : Bytes} {offset : ℕ} {scan : Bool} (h : walk bytes offset scan = true) :
    ∃ (coded : List Coded) (i : Image), (scan = false → coded = []) ∧
      bytes.drop offset = coded.flatMap Coded.bytes ++ i.rest := by
  fun_induction walk bytes offset scan with
  | case3 offset scan hin hstart mark marker hmarker hescape ih =>
    -- an escape joins what is coded before and after it
    obtain ⟨_, coded, fill, _, hcoded⟩ := marker_split (by simpa using hstart) hmarker
    obtain ⟨hscan, hescape⟩ := Bool.and_eq_true_iff.mp hescape
    obtain ⟨coded', i, hclosed, hrest⟩ := ih h
    have hitem : ∃ c : Coded, c.bytes = marked fill marker := by
      rcases Bool.or_eq_true_iff.mp hescape with hzero | hrestart
      · exact ⟨.stuffed fill, by rw [of_decide_eq_true hzero]; rfl⟩
      · exact ⟨.restart fill marker hrestart, rfl⟩
    obtain ⟨c, hc⟩ := hitem
    refine ⟨coded ++ c :: coded', i, by simp [hscan], ?_⟩
    rw [hcoded, hrest]
    simp [hc]
  | case4 offset scan hin hstart mark hmarker hescape =>
    obtain ⟨_, coded, fill, hclosed, hcoded⟩ := marker_split (by simpa using hstart) hmarker
    refine ⟨coded, ⟨[], fill⟩, hclosed, ?_⟩
    have hend : bytes.drop (mark + 1) = [] := List.drop_eq_nil_of_le (Nat.le_of_eq (of_decide_eq_true h).symm)
    rw [hcoded, hend, List.append_nil]
    rfl
  | case8 offset scan hin hstart mark marker hmarker hescape heoi hplain htwo length hfits ih =>
    obtain ⟨hff, coded, fill, hclosed, hcoded⟩ := marker_split (by simpa using hstart) hmarker
    obtain ⟨coded', i, hnone, hrest⟩ := ih h
    obtain ⟨hread, hlt⟩ := uint16BE_read (show mark + 1 + 2 ≤ bytes.length by omega)
    simp only [Bool.or_eq_true, decide_eq_true_eq, not_or] at hfits
    have hpayload : ((bytes.drop (mark + 3)).take (length - 2)).length + 2 = length := by
      rw [List.length_take, List.length_drop]
      omega
    have hsegment : isSegment marker = true := by
      simp only [Bool.or_eq_true, decide_eq_true_eq, not_or] at hplain
      simp [isSegment, hff, heoi, hplain]
    let s : Segment :=
      { fill, marker, payload := (bytes.drop (mark + 3)).take (length - 2), coded := coded'
        isSegment := hsegment
        fits := by rw [hpayload]; exact hlt
        scans := fun hne => hnone (decide_eq_false hne) }
    have hafter : bytes.drop (mark + 3) = s.payload ++ bytes.drop (mark + 1 + length) := by
      have hshift : mark + 1 + length = mark + 3 + (length - 2) := by omega
      have hsplit := List.take_append_drop (length - 2) (bytes.drop (mark + 3))
      rw [List.drop_drop] at hsplit
      rw [hshift]
      exact hsplit.symm
    refine ⟨coded, ⟨s :: i.segments, i.fill⟩, hclosed, ?_⟩
    rw [hcoded, hread, show mark + 1 + 2 = mark + 3 from rfl, hafter, hrest]
    simp only [Image.rest, List.flatMap_cons, Segment.bytes, List.append_assoc]
    rw [show s.payload.length + 2 = length from hpayload]
  | _ => exact absurd h (by simp)

/-- **The walk accepts the bytes of images and nothing else.** -/
theorem framed_iff (bytes : Bytes) : framed bytes = true ↔ ∃ i : Image, i.bytes = bytes := by
  constructor
  · intro h
    unfold framed at h
    split at h
    · cases h
    · rename_i hstart
      simp only [Bool.or_eq_true, decide_eq_true_eq, not_or, not_not] at hstart
      obtain ⟨coded, i, hclosed, hrest⟩ := walk_image h
      obtain ⟨hread, _⟩ := uint16BE_read (show 0 + 2 ≤ bytes.length by omega)
      refine ⟨i, ?_⟩
      rw [List.drop_zero, hstart.2, hrest, hclosed rfl] at hread
      exact hread.symm
  · intro ⟨i, hi⟩
    have hend := framed_bytes i []
    rw [List.append_nil, hi] at hend
    exact hend

/-! ## It is one image -/

theorem marked_inj {fill fill' : ℕ} {m m' : UInt8} {r r' : Bytes} (hm : m ≠ 0xff) (hm' : m' ≠ 0xff)
    (h : marked fill m ++ r = marked fill' m' ++ r') : fill = fill' ∧ m = m' ∧ r = r' := by
  simp only [marked, List.cons_append, List.cons.injEq, true_and, List.append_assoc, List.nil_append] at h
  induction fill generalizing fill' with
  | zero =>
    cases fill' with
    | zero => simpa using h
    | succ fill' => exact absurd (List.cons.inj h).1 hm
  | succ fill ih =>
    cases fill' with
    | zero => exact absurd (List.cons.inj h).1.symm hm'
    | succ fill' =>
      obtain ⟨hfill, hrest⟩ := ih (List.cons.inj h).2
      exact ⟨congrArg Nat.succ hfill, hrest⟩

theorem uint16BE_inj {n n' : ℕ} (hn : n < 65536) (hn' : n' < 65536) (h : uint16BE n = uint16BE n') : n = n' := by
  simp only [uint16BE, List.cons.injEq, and_true, ← UInt8.toNat_inj, UInt8.toNat_ofNat'] at h
  omega

theorem not_ff_of_restart {m : UInt8} (h : isRestart m = true) : m ≠ 0xff := by
  intro hff
  simp [hff, isRestart] at h

theorem not_ff_of_segment {m : UInt8} (h : isSegment m = true) : m ≠ 0xff := by
  intro hff
  simp [hff, isSegment] at h

theorem rest_cons (s : Segment) (segments : List Segment) (fill : ℕ) :
    Image.rest ⟨s :: segments, fill⟩ = marked s.fill s.marker ++ (uint16BE (s.payload.length + 2) ++
      (s.payload ++ (s.coded.flatMap Coded.bytes ++ Image.rest ⟨segments, fill⟩))) := by
  simp only [Image.rest, List.flatMap_cons, Segment.bytes, List.append_assoc]

theorem rest_marked (i : Image) : ∃ fill m r, i.rest = marked fill m ++ r ∧ m ≠ 0xff ∧
    (m = 0 || isRestart m) = false := by
  obtain ⟨segments, fill⟩ := i
  cases segments with
  | nil => exact ⟨fill, 0xd9, [], by simp [Image.rest], by decide, by decide⟩
  | cons s segments =>
    refine ⟨s.fill, s.marker, _, rest_cons s segments fill, not_ff_of_segment s.isSegment, ?_⟩
    have hsegment := s.isSegment
    simp only [isSegment, Bool.not_eq_true', Bool.or_eq_false_iff] at hsegment
    rw [hsegment.1.1.1.1.2, hsegment.1.1.2, Bool.or_false]

theorem Coded.cases_bytes (c : Coded) : (∃ b plain, c = .byte b plain) ∨
    ∃ fill m, c.bytes = marked fill m ∧ m ≠ 0xff ∧ (m = 0 || isRestart m) = true := by
  cases c with
  | byte b plain => exact .inl ⟨b, plain, rfl⟩
  | stuffed fill => exact .inr ⟨fill, 0, rfl, by decide, rfl⟩
  | restart fill m restarts =>
    exact .inr ⟨fill, m, rfl, not_ff_of_restart restarts, by rw [restarts, Bool.or_true]⟩

theorem Coded.bytes_inj {c c' : Coded} {r r' : Bytes} (h : c.bytes ++ r = c'.bytes ++ r') : c = c' ∧ r = r' := by
  cases c with
  | byte b plain =>
    cases c' with
    | byte b' plain' =>
      obtain ⟨hb, hr⟩ := List.cons.inj h
      subst hb
      exact ⟨rfl, hr⟩
    | stuffed fill => exact absurd (List.cons.inj h).1 plain
    | restart fill m restarts => exact absurd (List.cons.inj h).1 plain
  | stuffed fill =>
    cases c' with
    | byte b' plain' => exact absurd (List.cons.inj h).1.symm plain'
    | stuffed fill' =>
      obtain ⟨hfill, _, hr⟩ := marked_inj (by decide) (by decide) h
      exact ⟨congrArg Coded.stuffed hfill, hr⟩
    | restart fill' m restarts =>
      obtain ⟨_, hm, _⟩ := marked_inj (by decide) (not_ff_of_restart restarts) h
      subst hm
      exact absurd restarts (by decide)
  | restart fill m restarts =>
    cases c' with
    | byte b' plain' => exact absurd (List.cons.inj h).1.symm plain'
    | stuffed fill' =>
      obtain ⟨_, hm, _⟩ := marked_inj (not_ff_of_restart restarts) (by decide) h
      subst hm
      exact absurd restarts (by decide)
    | restart fill' m' restarts' =>
      obtain ⟨hfill, hm, hr⟩ := marked_inj (not_ff_of_restart restarts) (not_ff_of_restart restarts') h
      subst hfill hm
      exact ⟨rfl, hr⟩

theorem Coded.not_rest (c : Coded) (r : Bytes) (i : Image) : c.bytes ++ r ≠ i.rest := by
  intro h
  obtain ⟨fill, m, r', hrest, hm, hclosed⟩ := rest_marked i
  rw [hrest] at h
  rcases c.cases_bytes with ⟨b, plain, rfl⟩ | ⟨fill', m', hbytes, hm', hescape⟩
  · exact plain (List.cons.inj h).1
  · rw [hbytes] at h
    obtain ⟨_, hsame, _⟩ := marked_inj hm' hm h
    rw [hsame, hclosed] at hescape
    cases hescape

theorem coded_inj {coded coded' : List Coded} {i i' : Image}
    (h : coded.flatMap Coded.bytes ++ i.rest = coded'.flatMap Coded.bytes ++ i'.rest) :
    coded = coded' ∧ i.rest = i'.rest := by
  induction coded generalizing coded' with
  | nil =>
    cases coded' with
    | nil => exact ⟨rfl, h⟩
    | cons c' coded' =>
      rw [List.flatMap_cons, List.append_assoc] at h
      exact absurd h.symm (c'.not_rest _ i)
  | cons c coded ih =>
    rw [List.flatMap_cons, List.append_assoc] at h
    cases coded' with
    | nil => exact absurd h (c.not_rest _ i')
    | cons c' coded' =>
      rw [List.flatMap_cons, List.append_assoc] at h
      obtain ⟨hc, hr⟩ := Coded.bytes_inj h
      obtain ⟨hcoded, hrest⟩ := ih hr
      exact ⟨by rw [hc, hcoded], hrest⟩

theorem end_not_segment (s : Segment) (segments : List Segment) (fill fill' : ℕ) :
    Image.rest ⟨[], fill⟩ ≠ Image.rest ⟨s :: segments, fill'⟩ := by
  intro h
  have hend : marked fill 0xd9 ++ [] = Image.rest ⟨s :: segments, fill'⟩ := by
    rw [← h, List.append_nil]
    rfl
  rw [rest_cons] at hend
  obtain ⟨_, hmarker, _⟩ := marked_inj (by decide) (not_ff_of_segment s.isSegment) hend
  have hsegment := s.isSegment
  rw [← hmarker] at hsegment
  cases hsegment

theorem rest_inj {segments segments' : List Segment} {fill fill' : ℕ}
    (h : Image.rest ⟨segments, fill⟩ = Image.rest ⟨segments', fill'⟩) : segments = segments' ∧ fill = fill' := by
  induction segments generalizing segments' with
  | nil =>
    cases segments' with
    | nil =>
      have hend : marked fill 0xd9 ++ [] = marked fill' 0xd9 ++ [] := by
        rw [List.append_nil, List.append_nil]
        exact h
      exact ⟨rfl, (marked_inj (by decide) (by decide) hend).1⟩
    | cons s' segments' => exact absurd h (end_not_segment s' segments' fill fill')
  | cons s segments ih =>
    cases segments' with
    | nil => exact absurd h.symm (end_not_segment s segments fill' fill)
    | cons s' segments' =>
      rw [rest_cons, rest_cons] at h
      obtain ⟨hfill, hmarker, hbody⟩ := marked_inj (not_ff_of_segment s.isSegment) (not_ff_of_segment s'.isSegment) h
      obtain ⟨hlength, hbody⟩ := List.append_inj hbody rfl
      have hsame := uint16BE_inj s.fits s'.fits hlength
      obtain ⟨hpayload, hcoded⟩ := List.append_inj hbody (by omega)
      obtain ⟨hcoded, hrest⟩ := coded_inj hcoded
      obtain ⟨hsegments, hend⟩ := ih hrest
      exact ⟨by rw [Segment.ext hfill hmarker hpayload hcoded, hsegments], hend⟩

theorem bytes_inj {i i' : Image} (h : i.bytes = i'.bytes) : i = i' := by
  obtain ⟨hsegments, hfill⟩ := rest_inj (List.cons.inj (List.cons.inj h).2).2
  cases i
  cases i'
  exact congr (congrArg Image.mk hsegments) hfill

/-! ## What a decoder is handed -/

/-- **Framing.** The walk ends on every string and accepts exactly the images: a start marker,
segments as long as they say, coded data after the starts of scans, and the end marker last, with
fill before any of these markers but the first, and before stuffed zeros. Each accepted string is one
image only, and none is the beginning of another. -/
theorem framed_exact :
    (∀ bytes, framed bytes = true ↔ ∃! i : Image, i.bytes = bytes) ∧
    ∀ bytes more, framed bytes = true → framed (bytes ++ more) = true → more = [] := by
  refine ⟨fun bytes => ?_, fun bytes more h hmore => ?_⟩
  · rw [framed_iff]
    constructor
    · intro ⟨i, hi⟩
      exact ⟨i, hi, fun i' hi' => bytes_inj (hi'.trans hi.symm)⟩
    · intro ⟨i, hi, _⟩
      exact ⟨i, hi⟩
  · obtain ⟨i, rfl⟩ := (framed_iff bytes).mp h
    exact of_decide_eq_true ((framed_bytes i more).symm.trans hmore)

def FilledMarkers (bytes : Bytes) : Prop :=
  ∃ (fill : ℕ) (i : Image), bytes = List.replicate fill 0xff ++ i.bytes ∧
    ∀ s ∈ i.segments, ∀ n, Coded.stuffed n ∈ s.coded → n = 0

def filledStart : Bytes := [0xff, 0xff, 0xd8, 0xff, 0xd9]

def filledZero : Bytes := [0xff, 0xd8, 0xff, 0xda, 0, 2, 0xff, 0xff, 0, 0xff, 0xd9]

/-- The image of `filledZero`. -/
def zeroImage : Image :=
  ⟨[{ fill := 0, marker := 0xda, payload := [], coded := [.stuffed 1]
      isSegment := rfl, fits := by decide, scans := fun h => absurd rfl h }], 0⟩

theorem framed_not_filledMarkers :
    (framed filledStart = false ∧ FilledMarkers filledStart) ∧
    (framed filledZero = true ∧ ¬ FilledMarkers filledZero) := by
  have hstart : framed filledStart = false := by
    simp [framed, filledStart, readUInt16BE]
  refine ⟨⟨hstart, 1, ⟨[], 0⟩, rfl, by simp⟩, framed_bytes zeroImage [], ?_⟩
  intro ⟨fill, i, hbytes, hplain⟩
  cases fill with
  | zero =>
    have hi : zeroImage = i := bytes_inj hbytes
    subst hi
    exact absurd (hplain _ List.mem_cons_self 1 List.mem_cons_self) (by decide)
  | succ fill =>
    cases fill with
    | zero => exact absurd (List.cons.inj hbytes).2 (by simp [Image.bytes])
    | succ fill => exact absurd (List.cons.inj (List.cons.inj hbytes).2).1 (by decide)

end Albusforge.Cloudlink
