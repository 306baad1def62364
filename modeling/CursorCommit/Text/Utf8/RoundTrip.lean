/-
  UTF-8 is read back as it was written.

  * `decode_encode`: every text is read back from its bytes;
  * `decode_eq_ok_iff`: bytes are read as a text iff they are the bytes of
    that text, so no text has two forms.
-/
import CursorCommit.Text.Utf8

namespace CursorCommit.Utf8

theorem toNat_ofNat {n : Nat} (h : n < 256) : (UInt8.ofNat n).toNat = n := by
  simpa using Nat.mod_eq_of_lt h

/-- A character lies below the surrogates or above them. -/
theorem charRange (c : Char) : c.toNat < 0xD800 ∨ 0xDFFF < c.toNat ∧ c.toNat < 0x110000 := by
  have := c.valid
  simpa [UInt32.isValidChar, Nat.isValidChar] using this

theorem piecesFrom_eq_drop (skip : Nat) (bytes : List UInt8) :
    piecesFrom skip bytes = pieces (bytes.drop skip) := by
  induction skip generalizing bytes with
  | zero => rfl
  | succ skip ih =>
    cases bytes with
    | nil => rfl
    | cons a rest => exact ih rest

theorem pieces_cons (a : UInt8) (rest : List UInt8) :
    pieces (a :: rest) =
      firstPiece a rest :: pieces (rest.drop ((firstPiece a rest).width - 1)) := by
  rw [← piecesFrom_eq_drop]; rfl

/-- **A character is read back** from the front of any bytes. -/
theorem firstPiece_utf8EncodeChar (c : Char) (r : List UInt8) :
    ∃ a rest, String.utf8EncodeChar c = a :: rest ∧ firstPiece a (rest ++ r) = .char c := by
  have hv := charRange c
  have hc : Char.ofNat c.toNat = c := Char.ofNat_toNat c
  have hn : c.val.toNat = c.toNat := rfl
  unfold String.utf8EncodeChar
  simp only [hn]
  generalize c.toNat = n at *
  split
  · next h1 =>
    refine ⟨_, _, rfl, ?_⟩
    have ha : (UInt8.ofNat n).toNat = n := toNat_ofNat (by omega)
    unfold firstPiece
    rw [ha, if_pos (by omega), hc]
  · next h1 =>
    split
    · next h2 =>
      refine ⟨_, _, rfl, ?_⟩
      have ha : (UInt8.ofNat (n / 64 % 32 + 192)).toNat = n / 64 % 32 + 192 := toNat_ofNat (by omega)
      have hb : (UInt8.ofNat (n % 64 + 128)).toNat = n % 64 + 128 := toNat_ofNat (by omega)
      have hl : sequenceLength (n / 64 % 32 + 192) = 2 := by
        unfold sequenceLength; rw [if_pos (by omega)]
      have hs : isSecond (n / 64 % 32 + 192) (n % 64 + 128) = true := by
        simp only [isSecond, isContinuation, Bool.and_eq_true, decide_eq_true_eq]
        refine ⟨by omega, ?_⟩
        repeat' split
        all_goals first | rfl | (simp only [decide_eq_true_eq]; omega)
      unfold firstPiece
      rw [ha, if_neg (by omega), hl, if_neg (by omega)]
      simp only [List.cons_append, hb, hs, Bool.true_eq_false, if_false, if_true]
      rw [show (n / 64 % 32 + 192) % 32 * 64 + (n % 64 + 128) % 64 = n by omega, hc]
    · next h2 =>
      split
      · next h3 =>
        refine ⟨_, _, rfl, ?_⟩
        have ha : (UInt8.ofNat (n / 4096 % 16 + 224)).toNat = n / 4096 % 16 + 224 :=
          toNat_ofNat (by omega)
        have hb : (UInt8.ofNat (n / 64 % 64 + 128)).toNat = n / 64 % 64 + 128 :=
          toNat_ofNat (by omega)
        have hd : (UInt8.ofNat (n % 64 + 128)).toNat = n % 64 + 128 := toNat_ofNat (by omega)
        have hl : sequenceLength (n / 4096 % 16 + 224) = 3 := by
          unfold sequenceLength; rw [if_neg (by omega), if_pos (by omega)]
        have hs : isSecond (n / 4096 % 16 + 224) (n / 64 % 64 + 128) = true := by
          simp only [isSecond, isContinuation, Bool.and_eq_true, decide_eq_true_eq]
          refine ⟨by omega, ?_⟩
          repeat' split
          all_goals first | rfl | (simp only [decide_eq_true_eq]; omega)
        have ht : isContinuation (n % 64 + 128) = true := by
          simp only [isContinuation, Bool.and_eq_true, decide_eq_true_eq]; omega
        unfold firstPiece
        rw [ha, if_neg (by omega), hl, if_neg (by omega)]
        simp only [List.cons_append, hb, hd, hs, ht, Bool.true_eq_false, Nat.reduceEqDiff, if_false,
          if_true]
        rw [show (n / 4096 % 16 + 224) % 16 * 4096 + (n / 64 % 64 + 128) % 64 * 64 +
          (n % 64 + 128) % 64 = n by omega, hc]
      · next h3 =>
        refine ⟨_, _, rfl, ?_⟩
        have ha : (UInt8.ofNat (n / 262144 % 8 + 240)).toNat = n / 262144 % 8 + 240 :=
          toNat_ofNat (by omega)
        have hb : (UInt8.ofNat (n / 4096 % 64 + 128)).toNat = n / 4096 % 64 + 128 :=
          toNat_ofNat (by omega)
        have hd : (UInt8.ofNat (n / 64 % 64 + 128)).toNat = n / 64 % 64 + 128 :=
          toNat_ofNat (by omega)
        have he : (UInt8.ofNat (n % 64 + 128)).toNat = n % 64 + 128 := toNat_ofNat (by omega)
        have hl : sequenceLength (n / 262144 % 8 + 240) = 4 := by
          unfold sequenceLength; rw [if_neg (by omega), if_neg (by omega), if_pos (by omega)]
        have hs : isSecond (n / 262144 % 8 + 240) (n / 4096 % 64 + 128) = true := by
          simp only [isSecond, isContinuation, Bool.and_eq_true, decide_eq_true_eq]
          refine ⟨by omega, ?_⟩
          repeat' split
          all_goals first | rfl | (simp only [decide_eq_true_eq]; omega)
        have ht : isContinuation (n / 64 % 64 + 128) = true := by
          simp only [isContinuation, Bool.and_eq_true, decide_eq_true_eq]; omega
        have hu : isContinuation (n % 64 + 128) = true := by
          simp only [isContinuation, Bool.and_eq_true, decide_eq_true_eq]; omega
        unfold firstPiece
        rw [ha, if_neg (by omega), hl, if_neg (by omega)]
        simp only [List.cons_append, hb, hd, he, hs, ht, hu, Bool.true_eq_false, Nat.reduceEqDiff,
          if_false]
        rw [show (n / 262144 % 8 + 240) % 8 * 262144 + (n / 4096 % 64 + 128) % 64 * 4096 +
          (n / 64 % 64 + 128) % 64 * 64 + (n % 64 + 128) % 64 = n by omega, hc]

theorem pieces_utf8EncodeChar_append (c : Char) (r : List UInt8) :
    pieces (String.utf8EncodeChar c ++ r) = .char c :: pieces r := by
  obtain ⟨a, rest, he, hf⟩ := firstPiece_utf8EncodeChar c r
  have hl : rest.length = c.utf8Size - 1 := by
    have := String.length_utf8EncodeChar c
    rw [he, List.length_cons] at this; omega
  rw [he, List.cons_append, pieces_cons, hf]
  show _ :: pieces ((rest ++ r).drop (c.utf8Size - 1)) = _
  rw [← hl, List.drop_left]

theorem pieces_flatMap (cs : List Char) :
    pieces (cs.flatMap String.utf8EncodeChar) = cs.map .char := by
  induction cs with
  | nil => rfl
  | cons c cs ih => rw [List.flatMap_cons, pieces_utf8EncodeChar_append, ih, List.map_cons]

theorem assemble_map_char (index : Nat) (cs : List Char) :
    assemble index (cs.map .char) = .ok cs := by
  induction cs generalizing index with
  | nil => rfl
  | cons c cs ih => rw [List.map_cons, assemble, ih]; rfl

/-- **Every text is read back from its bytes.** -/
theorem decode_encode (s : String) : decode (encode s) = .ok s := by
  rw [decode, encode, pieces_flatMap, assemble_map_char]
  exact congrArg Except.ok String.ofList_toList

theorem eq_ofNat {a : UInt8} {n : Nat} (h : a.toNat = n) : UInt8.ofNat n = a := by
  rw [← h, UInt8.ofNat_toNat]

theorem val_ofNat {n : Nat} (h : n < 0xD800 ∨ 0xDFFF < n ∧ n < 0x110000) :
    (Char.ofNat n).val.toNat = n := by
  have hv : n.isValidChar := h
  rw [Char.ofNat, dif_pos hv]
  rfl

/-- **A character comes from its own bytes only.** -/
theorem utf8EncodeChar_of_firstPiece {a : UInt8} {rest : List UInt8} {c : Char}
    (h : firstPiece a rest = .char c) :
    a :: rest = String.utf8EncodeChar c ++ rest.drop (c.utf8Size - 1) := by
  have ha := a.toNat_lt_size
  simp only [UInt8.size] at ha
  have key : ∀ bs : List UInt8, String.utf8EncodeChar c = bs → bs <+: a :: rest →
      a :: rest = String.utf8EncodeChar c ++ rest.drop (c.utf8Size - 1) := by
    rintro bs rfl ⟨t, ht⟩
    have hl := String.length_utf8EncodeChar c
    have hp := Char.utf8Size_pos c
    rw [← ht]
    congr 1
    have : (a :: rest).drop c.utf8Size = t := by rw [← ht, ← hl, List.drop_left]
    rw [← this]
    obtain ⟨k, hk⟩ : ∃ k, c.utf8Size = k + 1 := ⟨c.utf8Size - 1, by omega⟩
    simp [hk]
  unfold firstPiece at h
  split at h
  · next h1 =>
    injection h with h
    have hv : c.val.toNat = a.toNat := by rw [← h]; exact val_ofNat (by omega)
    refine key [a] ?_ ⟨rest, rfl⟩
    unfold String.utf8EncodeChar
    simp only [hv]
    rw [if_pos (by omega), UInt8.ofNat_toNat]
  · next h1 =>
    split at h
    · cases h
    · next h2 =>
      split at h
      · cases h
      · next b rest =>
        split at h
        · cases h
        · next hs =>
          have hb : 0x80 ≤ b.toNat ∧ b.toNat ≤ 0xBF := by
            simp only [isSecond, isContinuation, Bool.not_eq_false, Bool.and_eq_true,
              decide_eq_true_eq] at hs
            exact hs.1
          split at h
          · next h3 =>
            injection h with h
            have hr : 0xC2 ≤ a.toNat ∧ a.toNat ≤ 0xDF := by
              unfold sequenceLength at h3
              repeat' split at h3
              all_goals omega
            have hv : c.val.toNat = a.toNat % 32 * 64 + b.toNat % 64 := by
              rw [← h]; exact val_ofNat (by omega)
            refine key [a, b] ?_ ⟨rest, rfl⟩
            unfold String.utf8EncodeChar
            simp only [hv]
            rw [if_neg (by omega), if_pos (by omega), eq_ofNat (a := a) (by omega),
              eq_ofNat (a := b) (by omega)]
          · next h3 =>
            split at h
            · cases h
            · next d rest =>
              split at h
              · cases h
              · next ht =>
                have hd : 0x80 ≤ d.toNat ∧ d.toNat ≤ 0xBF := by
                  simpa [isContinuation] using ht
                split at h
                · next h4 =>
                  injection h with h
                  have hr : 0xE0 ≤ a.toNat ∧ a.toNat ≤ 0xEF := by
                    unfold sequenceLength at h4
                    repeat' split at h4
                    all_goals omega
                  have hlow : a.toNat = 0xE0 → 0xA0 ≤ b.toNat := by
                    intro he; simpa [isSecond, isContinuation, he, hb] using hs
                  have hhigh : a.toNat = 0xED → b.toNat ≤ 0x9F := by
                    intro he; simpa [isSecond, isContinuation, he, hb] using hs
                  have hv : c.val.toNat =
                      a.toNat % 16 * 4096 + b.toNat % 64 * 64 + d.toNat % 64 := by
                    rw [← h]; exact val_ofNat (by omega)
                  refine key [a, b, d] ?_ ⟨rest, rfl⟩
                  unfold String.utf8EncodeChar
                  simp only [hv]
                  rw [if_neg (by omega), if_neg (by omega), if_pos (by omega),
                    eq_ofNat (a := a) (by omega), eq_ofNat (a := b) (by omega),
                    eq_ofNat (a := d) (by omega)]
                · next h4 =>
                  split at h
                  · cases h
                  · next e rest =>
                    split at h
                    · cases h
                    · next hu =>
                      have he : 0x80 ≤ e.toNat ∧ e.toNat ≤ 0xBF := by
                        simpa [isContinuation] using hu
                      injection h with h
                      have hr : 0xF0 ≤ a.toNat ∧ a.toNat ≤ 0xF4 := by
                        unfold sequenceLength at h2 h3 h4
                        repeat' split at h4
                        all_goals simp_all
                      have hlow : a.toNat = 0xF0 → 0x90 ≤ b.toNat := by
                        intro he; simpa [isSecond, isContinuation, he, hb] using hs
                      have hhigh : a.toNat = 0xF4 → b.toNat ≤ 0x8F := by
                        intro he; simpa [isSecond, isContinuation, he, hb] using hs
                      have hv : c.val.toNat = a.toNat % 8 * 262144 + b.toNat % 64 * 4096 +
                          d.toNat % 64 * 64 + e.toNat % 64 := by
                        rw [← h]; exact val_ofNat (by omega)
                      refine key [a, b, d, e] ?_ ⟨rest, rfl⟩
                      unfold String.utf8EncodeChar
                      simp only [hv]
                      rw [if_neg (by omega), if_neg (by omega), if_neg (by omega),
                        eq_ofNat (a := a) (by omega), eq_ofNat (a := b) (by omega),
                        eq_ofNat (a := d) (by omega), eq_ofNat (a := e) (by omega)]

theorem flatMap_of_assemble {index : Nat} {bytes : List UInt8} {cs : List Char}
    (h : assemble index (pieces bytes) = .ok cs) : cs.flatMap String.utf8EncodeChar = bytes := by
  induction cs generalizing index bytes with
  | nil =>
    cases bytes with
    | nil => rfl
    | cons a rest =>
      rw [pieces_cons] at h
      cases hp : firstPiece a rest with
      | junk n cut => rw [hp] at h; cases h
      | char c =>
        rw [hp, assemble] at h
        cases hr : assemble (index + c.utf8Size)
          (pieces (rest.drop ((Utf8Piece.char c).width - 1))) with
        | error e => rw [hr] at h; cases h
        | ok cs => rw [hr] at h; cases h
  | cons c cs ih =>
    cases bytes with
    | nil => cases h
    | cons a rest =>
      rw [pieces_cons] at h
      cases hp : firstPiece a rest with
      | junk n cut => rw [hp] at h; cases h
      | char c' =>
        rw [hp, assemble] at h
        cases hr : assemble (index + c'.utf8Size)
          (pieces (rest.drop ((Utf8Piece.char c').width - 1))) with
        | error e => rw [hr] at h; cases h
        | ok cs' =>
          rw [hr] at h
          obtain ⟨rfl, rfl⟩ : c' = c ∧ cs' = cs := by
            simpa [Except.map] using h
          rw [List.flatMap_cons, ih hr]
          exact (utf8EncodeChar_of_firstPiece hp).symm

/-- **Bytes are read as a text iff they are its bytes.** -/
theorem decode_eq_ok_iff {bytes : List UInt8} {s : String} :
    decode bytes = .ok s ↔ bytes = encode s := by
  constructor
  · intro h
    unfold decode at h
    cases ha : assemble 0 (pieces bytes) with
    | error e => rw [ha] at h; cases h
    | ok cs =>
      rw [ha] at h
      have : String.ofList cs = s := by simpa [Except.map] using h
      rw [← this, encode, String.toList_ofList]
      exact (flatMap_of_assemble ha).symm
  · rintro rfl
    exact decode_encode s

end CursorCommit.Utf8
