/-
  What a `write` of the fpga_pcie driver puts into the data register.

  `WordsWritten` compares one call with the file: a call that returns zero wrote every word
  of the file, in order and each once, and a call that fails wrote a prefix of them. It also
  counts: one access a word, at most one status reading after each, and the readings at
  either end, so the loop is over after as many accesses as the file has words to give.

  The file is below 2 GiB (beyond, `altPrIpFpgaWrite_large` is what happens), and the device
  is any device: the readings in between are whatever it answers.
-/
import FpgaPartialReconfig.Driver.Loader

namespace FpgaPartialReconfig.Driver

open Bus

/-- A call for a file with the words `words` that returned `ret` and made the accesses `es`. -/
structure WordsWritten (words : List U32) (ret : Int) (es : List (Access Addr U32)) : Prop where
  zero : ret = 0 → writesTo altPrData es = words
  error : ret ≠ 0 → ret < 0 ∧ writesTo altPrData es <+: words
  bounded : es.length ≤ 2 * words.length + 2

section
variable {σ : Type} (D : Device Addr U32 σ)

/-! ## How many accesses there are -/

theorem S10.chunkCheck_length (verbose : Bool) (j : Nat) :
    Emits (S10.chunkCheck D verbose j) fun _ es => es.length ≤ 1 := by
  refine Spec.ite (fun _ => ?_) fun _ => Spec.pure fun _ _ => Nat.zero_le 1
  refine (emits_prState D S10.stateOf).bind fun s es h => Spec.pure fun _ _ => ?_
  obtain ⟨v, rfl, -⟩ := h
  exact Nat.le_refl 1

theorem feed_length {check : Nat → Act (Regs σ) Bool}
    (hcheck : ∀ j, Emits (check j) fun _ es => es.length ≤ 1) (j : Nat) (ws : List U32) :
    Emits (feed D check j ws) fun _ es => es.length ≤ 2 * ws.length := by
  induction ws generalizing j with
  | nil => exact Spec.pure fun _ _ => Nat.le_refl 0
  | cons w ws ih =>
    refine (emits_writel D w altPrData).bind fun _ es h => ?_
    subst h
    refine (hcheck (j + 1)).bind fun ok es hes => Spec.ite (fun _ => ?_) fun _ => ?_
    · refine (ih _).mono fun _ es' h => ?_
      simp only [List.length_append, List.length_cons, List.length_nil]
      omega
    · refine Spec.pure fun _ _ => ?_
      simp only [List.length_append, List.length_cons, List.length_nil]
      omega

theorem putWords_length (ws : List U32) :
    Emits (putWords D ws) fun _ es => es.length = ws.length := by
  induction ws with
  | nil => exact Spec.pure fun _ _ => rfl
  | cons w ws ih =>
    refine (emits_writel D w altPrData).bind fun _ es h => ?_
    subst h
    refine ih.mono fun _ es' h => ?_
    simp only [List.length_append, List.length_cons, List.length_nil, h]
    omega

theorem closeWrite_length (stateOf : U32 → FpgaState) (ws : List U32) :
    Emits (closeWrite D stateOf ws) fun _ es => es.length = ws.length + 1 := by
  refine (putWords_length D ws).bind fun _ es h => ?_
  refine (emits_prState D stateOf).bind fun s es' h' => ?_
  obtain ⟨v, rfl, -⟩ := h'
  have hlen : (es ++ ([Access.read altPrCsr v] ++ [])).length = ws.length + 1 := by
    simp only [List.length_append, List.length_cons, List.length_nil, h]
  exact Spec.ite (fun _ => Spec.pure fun _ _ => hlen) fun _ => Spec.pure fun _ _ => hlen

namespace Core

theorem chunkCheck_length (core : Core) (j : Nat) :
    Emits (core.chunkCheck D j) fun _ es => es.length ≤ 1 := by
  cases core with
  | a10 => exact S10.chunkCheck_length D false j
  | s10 verbose => exact S10.chunkCheck_length D verbose j

theorem preWrite_length (core : Core) :
    Emits (core.preWrite D) fun _ es => es.length ≤ 1 := by
  cases core with
  | a10 => exact Spec.pure fun _ _ => Nat.zero_le 1
  | s10 verbose =>
    refine (emits_prState D S10.stateOf).bind fun s es h => Spec.pure fun _ _ => ?_
    obtain ⟨v, rfl, -⟩ := h
    exact Nat.le_refl 1

/-! ## The words of a stream -/

/-- The complete words with the chunk checks, and then the remainder. -/
theorem stream_written (core : Core) (ws tail : List U32) :
    Emits (core.stream D ws (closeWrite D core.stateOf tail)) (WordsWritten (ws ++ tail)) := by
  refine ((core.emits_preWrite D).and (core.preWrite_length D)).bind fun _ es₁ h₁ => ?_
  obtain ⟨hsilent, hlen₁⟩ := h₁
  refine ((emits_feed D (core.emits_chunkCheck D) 0 ws).and
    (feed_length D (core.chunkCheck_length D) 0 ws)).bind fun ok es₂ h₂ => ?_
  obtain ⟨⟨hwritten, hall⟩, hlen₂⟩ := h₂
  refine Spec.ite (fun hok => ?_) fun _ => Spec.pure fun _ _ => ?_
  · refine ((emits_closeWrite D core.stateOf tail).and
      (closeWrite_length D core.stateOf tail)).mono fun ret es₃ h₃ => ?_
    obtain ⟨⟨hret, htail⟩, hlen₃⟩ := h₃
    have hwords : writesTo altPrData (es₁ ++ (es₂ ++ es₃)) = ws ++ tail := by
      rw [writesTo_append, writesTo_append, hsilent, hall hok, htail, List.nil_append]
    refine ⟨fun _ => hwords, fun h0 => ⟨by omega, ?_⟩, ?_⟩
    · exact ⟨[], by rw [hwords, List.append_nil]⟩
    · simp only [List.length_append]
      omega
  · -- an abandoned stream: the remainder is not written
    refine ⟨fun h => absurd h (by decide), fun _ => ⟨by decide, ?_⟩, ?_⟩
    · rw [List.append_nil, writesTo_append, hsilent, List.nil_append]
      exact hwritten.trans (List.prefix_append ws tail)
    · simp only [List.length_append, List.length_nil]
      omega

/-- `write`, for every file from the loader's size check up to 2 GiB. -/
theorem altPrIpFpgaWrite_words (core : Core) (fp : RbfFile) (buf : Mem) (h : 1024 ≤ fp.size)
    (hsize : fp.size < 2 ^ 31) (m : Regs σ) :
    WordsWritten (fileWords fp.bytes) (core.altPrIpFpgaWrite D fp buf m).1
      (trace (core.altPrIpFpgaWrite D fp buf) m) := by
  rw [core.altPrIpFpgaWrite_small D fp buf (by omega) hsize, fileWords_eq]
  exact (core.stream_written D _ _).at trivial

end Core

end

/-- A file of 1026 bytes on a device that never answers "in progress" or an error. -/
theorem Core.altPrIpFpgaWrite_words_1026 :
    WordsWritten (fileWords (List.replicate 1026 7))
      (Core.altPrIpFpgaWrite (Device.streams fun _ _ => 0) .a10
        (.ofBytes (List.replicate 1026 7)) (fun _ => 0xff) ⟨fun _ => 0, []⟩).1
      (trace (Core.altPrIpFpgaWrite (Device.streams fun _ _ => 0) .a10
        (.ofBytes (List.replicate 1026 7)) (fun _ => 0xff)) ⟨fun _ => 0, []⟩) := by
  have hlen : (RbfFile.ofBytes (List.replicate 1026 7)).size = 1026 := by
    rw [RbfFile.size_ofBytes, List.length_replicate]
  exact Core.altPrIpFpgaWrite_words (Device.streams fun _ _ => 0) .a10
    (.ofBytes (List.replicate 1026 7)) (fun _ => 0xff) (by omega) (by omega) ⟨fun _ => 0, []⟩

end FpgaPartialReconfig.Driver
