import Albusforge.Camera.Spool

/-!
# Headers, written and read

`obs_spool_put` prints a header and `header` scans it. What is printed for a record scans as that
record (`scanHeader_text`), and the file of the record is taken for it if `header` admits its moment
(`recordOf_file`): the checks of the two are the same ones but for that.
-/

namespace Albusforge.Camera

open Lib

/-! ## The fields of a header -/

theorem isSpace_hex {c : UInt8} (h : isHexDigit c = true) : isSpace c = false := by
  simp only [isHexDigit, Bool.or_eq_true, Bool.and_eq_true, decide_eq_true_eq, UInt8.le_iff_toNat_le,
    UInt8.reduceToNat] at h
  simp only [isSpace, Bool.or_eq_false_iff, Bool.and_eq_false_iff, decide_eq_false_iff_not,
    UInt8.le_iff_toNat_le, ← UInt8.toNat_inj, UInt8.reduceToNat]
  omega

theorem isSpace_uuid {id : Bytes} (h : obsUuidValid id = true) : ∀ c ∈ id, isSpace c = false := by
  intro c hc
  rcases uuid_byte h hc with rfl | hhex
  · decide
  · exact isSpace_hex hhex

theorem isSpace_digest {sha256 : Bytes} (h : obsDigestValid sha256 = true) : ∀ c ∈ sha256, isSpace c = false := by
  simp only [obsDigestValid, Bool.and_eq_true, List.all_eq_true] at h
  intro c hc
  exact isSpace_hex (h.2 c hc)

theorem scanWord_eq {word rest : Bytes} (hword : ∀ c ∈ word, isSpace c = false) (hne : word ≠ []) :
    scanWord word.length (32 :: (word ++ 32 :: rest)) = some (word, 32 :: rest) := by
  have hspaces : (32 :: (word ++ 32 :: rest)).dropWhile isSpace = word ++ 32 :: rest := by
    obtain ⟨c, word', rfl⟩ := List.exists_cons_of_ne_nil hne
    have hc := hword c List.mem_cons_self
    rw [List.dropWhile_cons_of_pos (by decide), List.cons_append, List.dropWhile_cons_of_neg (by simp [hc])]
  have htaken : ((word ++ 32 :: rest).takeWhile fun c => !isSpace c) = word := by
    rw [List.takeWhile_append_of_pos (by simpa using hword), List.takeWhile_cons_of_neg (by decide), List.append_nil]
  unfold scanWord
  dsimp only
  rw [hspaces, htaken, List.take_length, if_neg hne, List.drop_left]

theorem digit_byte {n : ℕ} {c : UInt8} (h : c ∈ ascii (decimal n)) : 48 ≤ c ∧ c ≤ 57 := by
  obtain ⟨u, hu, rfl⟩ := List.mem_map.mp h
  have hdigit := Json.isDigit_decimal hu
  simp only [isDigit, Bool.and_eq_true, decide_eq_true_eq] at hdigit
  simp only [UInt8.le_iff_toNat_le, UInt8.toNat_ofNat', UInt8.reduceToNat]
  omega

theorem digits_value (n : ℕ) : (ascii (decimal n)).foldl (fun n c => 10 * n + (c.toNat - 48)) 0 = n := by
  rw [ascii, List.foldl_map]
  have hsame : ∀ (t : Text) (m : ℕ), t.all isDigit = true →
      t.foldl (fun n u => 10 * n + ((UInt8.ofNat u).toNat - 48)) m = t.foldl (fun n u => 10 * n + (u - 48)) m := by
    intro t
    induction t with
    | nil => exact fun _ _ => rfl
    | cons u t ih =>
        intro m hall
        simp only [List.all_cons, Bool.and_eq_true, isDigit, decide_eq_true_eq] at hall
        rw [List.foldl_cons, List.foldl_cons, ih _ hall.2, UInt8.toNat_ofNat', Nat.mod_eq_of_lt (by omega)]
  rw [hsame _ _ (List.all_eq_true.mpr fun u hu => Json.isDigit_decimal hu)]
  exact Json.parseDecimal_decimal n

theorem scanUnsigned_eq {n : ℕ} {c : UInt8} {rest : Bytes} (hend : ¬ (48 ≤ c ∧ c ≤ 57)) :
    scanUnsigned (32 :: (ascii (decimal n) ++ c :: rest)) =
      some (if 2 ^ 64 ≤ n then 2 ^ 64 - 1 else n, c :: rest) := by
  have hne : ascii (decimal n) ≠ [] := by
    simp only [ascii, ne_eq, List.map_eq_nil_iff]
    exact Json.decimal_ne_nil n
  obtain ⟨c₀, digits, hdigits⟩ := List.exists_cons_of_ne_nil hne
  have hfirst : 48 ≤ c₀ ∧ c₀ ≤ 57 := digit_byte (hdigits ▸ List.mem_cons_self)
  have hplain : isSpace c₀ = false ∧ c₀ ≠ 43 ∧ c₀ ≠ 45 := by
    refine ⟨isSpace_hex (by simp [isHexDigit, hfirst]), ?_, ?_⟩
    · intro heq
      subst heq
      exact absurd hfirst (by decide)
    · intro heq
      subst heq
      exact absurd hfirst (by decide)
  have hspaces : (32 :: (ascii (decimal n) ++ c :: rest)).dropWhile isSpace = ascii (decimal n) ++ c :: rest := by
    rw [hdigits, List.dropWhile_cons_of_pos (by decide), List.cons_append,
      List.dropWhile_cons_of_neg (by simp [hplain.1])]
  have hhead : (ascii (decimal n) ++ c :: rest).head? = some c₀ := by rw [hdigits, List.cons_append, List.head?_cons]
  have htaken : ((ascii (decimal n) ++ c :: rest).takeWhile fun c => 48 ≤ c && c ≤ 57) = ascii (decimal n) := by
    rw [List.takeWhile_append_of_pos, List.takeWhile_cons_of_neg (by simpa using hend), List.append_nil]
    intro c hc
    simpa using digit_byte hc
  have hsign : (decide (some c₀ = some 43) || decide (some c₀ = some 45)) = false := by simp [hplain]
  unfold scanUnsigned
  dsimp only
  rw [hspaces, hhead, hsign, if_neg Bool.false_ne_true, htaken, if_neg hne, digits_value, List.drop_left]
  simp [hplain]

/-! ## The header of a record -/

def headerText (r : ObsRecord) : Bytes :=
  chars "HSXOBS1 " ++ r.id ++ [32] ++ r.sha256 ++ [32] ++ ascii (decimal r.capturedAt.toNat) ++ [32] ++
    ascii (decimal r.bytes) ++ [10]

def scanned (n : ℕ) : ℕ := if 2 ^ 64 ≤ n then 2 ^ 64 - 1 else n

theorem headerText_nonzero {r : ObsRecord} (hid : obsUuidValid r.id = true) (hdigest : obsDigestValid r.sha256 = true) :
    ∀ c ∈ headerText r, c ≠ 0 := by
  intro c hc heq
  subst heq
  simp only [headerText, List.mem_append, List.mem_singleton] at hc
  rcases hc with (((((((h | h) | h) | h) | h) | h) | h) | h) | h
  · exact absurd h (by decide)
  · rcases uuid_byte hid h with hdash | hhex
    · exact absurd hdash (by decide)
    · exact absurd hhex (by decide)
  · exact absurd h (by decide)
  · simp only [obsDigestValid, Bool.and_eq_true, List.all_eq_true] at hdigest
    exact absurd (hdigest.2 0 h) (by decide)
  · exact absurd h (by decide)
  · exact absurd (digit_byte h).1 (by decide)
  · exact absurd h (by decide)
  · exact absurd (digit_byte h).1 (by decide)
  · exact absurd h (by decide)

/-- **What is printed for a record scans as the record.** -/
theorem scanHeader_text {r : ObsRecord} {tail : Bytes} (hid : obsUuidValid r.id = true)
    (hdigest : obsDigestValid r.sha256 = true) (htail : tail.head? = some 0) :
    scanHeader (headerText r ++ tail) =
      some { r with capturedAt := scanned r.capturedAt.toNat, bytes := scanned r.bytes } := by
  have htext : ((headerText r ++ tail).takeWhile (· ≠ 0)) = headerText r := by
    obtain ⟨tail', rfl⟩ : ∃ tail', tail = 0 :: tail' := by
      cases tail with
      | nil => exact absurd htail (by simp)
      | cons c tail' => exact ⟨tail', by simpa using htail⟩
    rw [List.takeWhile_append_of_pos (by simpa using headerText_nonzero hid hdigest),
      List.takeWhile_cons_of_neg (by simp), List.append_nil]
  have hidLength := uuid_length hid
  have hdigestLength : r.sha256.length = 64 := by
    simp only [obsDigestValid, Bool.and_eq_true, decide_eq_true_eq] at hdigest
    exact hdigest.1
  have hsplit : headerText r = chars "HSXOBS1" ++ (32 :: (r.id ++ 32 :: (r.sha256 ++
      32 :: (ascii (decimal r.capturedAt.toNat) ++ 32 :: (ascii (decimal r.bytes) ++ [10]))))) := by
    simp [headerText, chars, ascii, js, codeUnits]
  have hstarts : (chars "HSXOBS1").isPrefixOf (headerText r) = true := by
    rw [hsplit, List.isPrefixOf_iff_prefix]
    exact List.prefix_append _ _
  have hrest : (headerText r).drop 7 = 32 :: (r.id ++ 32 :: (r.sha256 ++
      32 :: (ascii (decimal r.capturedAt.toNat) ++ 32 :: (ascii (decimal r.bytes) ++ [10])))) := by
    rw [hsplit]
    exact List.drop_left' rfl
  have hids : ∀ rest, scanWord 36 (32 :: (r.id ++ 32 :: rest)) = some (r.id, 32 :: rest) := by
    intro rest
    rw [← hidLength]
    exact scanWord_eq (isSpace_uuid hid) (List.ne_nil_of_length_pos (by omega))
  have hdigests : ∀ rest, scanWord 64 (32 :: (r.sha256 ++ 32 :: rest)) = some (r.sha256, 32 :: rest) := by
    intro rest
    rw [← hdigestLength]
    exact scanWord_eq (isSpace_digest hdigest) (List.ne_nil_of_length_pos (by omega))
  unfold scanHeader
  rw [htext]
  simp only [hstarts, hrest, hids, hdigests, Bool.not_true, Bool.false_eq_true, if_false,
    Option.bind_eq_bind, Option.bind_some,
    scanUnsigned_eq (show ¬ ((48 : UInt8) ≤ 32 ∧ (32 : UInt8) ≤ 57) by decide),
    scanUnsigned_eq (show ¬ ((48 : UInt8) ≤ 10 ∧ (10 : UInt8) ≤ 57) by decide)]
  rfl

/-- What `obs_spool_put` checks of a record, its path and its header apart. -/
structure Storable (r : ObsRecord) : Prop where
  id : obsUuidValid r.id = true
  digest : obsDigestValid r.sha256 = true
  some : r.bytes ≠ 0
  bounded : r.bytes ≤ obsMaxBytes
  recent : 1700000000 ≤ r.capturedAt

/-- The last moment that `header` admits. -/
def lastMoment : ℤ := 253402300799

variable {r : ObsRecord} {raw : Bytes}

theorem headerBytes_eq (h : headerBytes r = some raw) :
    ∃ padded, padded.length = 151 ∧ raw = padded ++ hex8 (crc32 padded) ++ [0] ∧
      ∃ zeros : Bytes, zeros.head? = some 0 ∧ padded = headerText r ++ zeros := by
  unfold headerBytes at h
  dsimp only at h
  rw [← headerText] at h
  split at h
  · exact absurd h (by simp)
  · rename_i hshort
    refine ⟨_, ?_, (Option.some.inj h).symm, List.replicate (151 - (headerText r).length) 0, ?_, rfl⟩
    · rw [List.length_append, List.length_replicate]
      omega
    · rw [List.head?_replicate, if_neg (by omega)]

theorem headerBytes_length (h : headerBytes r = some raw) : raw.length = headerSize := by
  obtain ⟨padded, hlength, rfl, -⟩ := headerBytes_eq h
  rw [List.length_append, List.length_append, hex8_length, hlength]
  rfl

theorem headerOf_bytes (hstorable : Storable r) (h : headerBytes r = some raw) :
    headerOf raw = if r.capturedAt ≤ lastMoment then some r else none := by
  have hsize := headerBytes_length h
  obtain ⟨padded, hlength, rfl, zeros, hzeros, htext⟩ := headerBytes_eq h
  have hchecksum : (padded ++ hex8 (crc32 padded) ++ [0]).drop 151 =
      hex8 (crc32 ((padded ++ hex8 (crc32 padded) ++ [0]).take 151)) ++ [0] := by
    rw [List.append_assoc, ← hlength, List.drop_left, List.take_left]
  have htail : (zeros ++ (hex8 (crc32 padded) ++ [0])).head? = some 0 := by
    rw [List.head?_append, hzeros]
    rfl
  have hscan := scanHeader_text hstorable.id hstorable.digest htail
  rw [← List.append_assoc, ← htext, ← List.append_assoc] at hscan
  have hbytes : scanned r.bytes = r.bytes := by
    have hbounded := hstorable.bounded
    rw [scanned, if_neg]
    rw [obsMaxBytes] at hbounded
    omega
  have hwhole : ¬ ((padded ++ hex8 (crc32 padded) ++ [0]).length ≠ headerSize ∨
      (padded ++ hex8 (crc32 padded) ++ [0]).drop 151 ≠
        hex8 (crc32 ((padded ++ hex8 (crc32 padded) ++ [0]).take 151)) ++ [0]) :=
    not_or.mpr ⟨not_not.mpr hsize, not_not.mpr hchecksum⟩
  rw [headerOf, if_neg hwhole, hscan, hbytes]
  have hrecent := hstorable.recent
  split
  · rename_i hearly
    have hmoment : ((scanned r.capturedAt.toNat : ℕ) : ℤ) = r.capturedAt := by
      rw [lastMoment] at hearly
      rw [scanned, if_neg (by omega)]
      omega
    rw [hmoment, lastMoment] at *
    refine Option.filter_eq_some_iff.mpr ⟨rfl, ?_⟩
    simp [hstorable.id, hstorable.digest, hstorable.some, hstorable.bounded, hrecent, hearly]
  · rename_i hlate
    have hmoment : ¬ ((scanned r.capturedAt.toNat : ℕ) : ℤ) ≤ 253402300799 := by
      rw [lastMoment] at hlate
      rw [scanned]
      split
      · omega
      · omega
    simp [Option.filter, hmoment]

theorem recordOf_file {payload : Bytes} (hstorable : Storable r) (h : headerBytes r = some raw)
    (hpayload : payload.length = r.bytes) :
    recordOf (raw ++ payload) = if r.capturedAt ≤ lastMoment then some r else none := by
  have hsize := headerBytes_length h
  rw [recordOf, ← hsize, List.take_left, headerOf_bytes hstorable h]
  split
  · simp [Option.filter, hpayload]
  · rfl

end Albusforge.Camera
