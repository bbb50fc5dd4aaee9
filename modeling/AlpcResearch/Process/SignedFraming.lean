import AlpcResearch.Process.Framing

/-!
# Signed lengths

`SrvInitializePortMessage` and `CliInitializePortMessage` keep their lengths in
`SHORT`s. While header and data together stay below 2^15 they make the same
frame of the data as the other senders do, in place of whatever was in the
buffer; beyond, and below zero, the sign is extended to a `SIZE_T`. The buffer
is cleared before the data is read, so data that lies in it is read as it is
then (`initializePortMessage_copies`).
-/

namespace AlpcResearch

open Resource Program Process

variable {pl : Platform} {n : Int16}

-- ---------------------------------------------------------------------------
-- Conversions
-- ---------------------------------------------------------------------------

theorem toSizeT_nonneg (h : 0 ≤ n.toInt) : toSizeT pl n = n.toInt.toNat := by
  have hlt := n.toInt_lt
  cases pl <;> simp only [toSizeT, Platform.pointerSize] <;> omega

theorem toSizeT_neg (h : n.toInt < 0) : 2 ^ 31 ≤ toSizeT pl n := by
  have hle := n.le_toInt
  cases pl <;> simp only [toSizeT, Platform.pointerSize] <;> omega

theorem toInt_signedTotalLengthOf (h : pl.sizeofPortMessage + n.toInt < 32768) :
    (signedTotalLengthOf pl n).toInt = pl.sizeofPortMessage + n.toInt := by
  have hle := n.le_toInt
  exact Int16.toInt_ofInt_of_le (by omega) (by omega)

theorem signedTotalLengthOf_wraps (h : 32768 ≤ pl.sizeofPortMessage + n.toInt) :
    (signedTotalLengthOf pl n).toInt < 0 := by
  have hlt := n.toInt_lt
  have hheader : pl.sizeofPortMessage ≤ 40 := by cases pl <;> decide
  rw [signedTotalLengthOf, Int16.toInt_ofInt, Int.bmod_def]
  simp only [Int16.size]
  omega

/-- No `SHORT` exceeds the limit it is compared with. -/
theorem toInt_le_limit (n : Int16) : ¬ n.toInt > 0xFFEF := by
  have hlt := n.toInt_lt
  omega

theorem toNat_toUInt16 (h : 0 ≤ n.toInt) : n.toUInt16.toNat = n.toInt.toNat :=
  Int16.toNat_toUInt16_of_le (Int16.le_iff_toInt_le.mpr h)

theorem cshort_toUInt16 (n : Int16) : cshort (leBytes 2 n.toUInt16.toNat) = n.toInt := by
  have hn : leNat (leBytes 2 n.toUInt16.toNat) = n.toUInt16.toNat := leNat_short n.toUInt16.toNat_lt
  have hbits : n.toInt = Int.bmod n.toUInt16.toNat 65536 := BitVec.toInt_eq_toNat_bmod n.toBitVec
  exact (congrArg (fun v : Nat => Int.bmod v 65536) hn).trans hbits.symm

-- ---------------------------------------------------------------------------
-- Building a message
-- ---------------------------------------------------------------------------

/-- The `n` bytes at `dataBuffer`; zeros stand for a `NULL` buffer. -/
def Given (P : Process) (dataBuffer : PVoid) (n : Int16) (bs : List UInt8) : Prop :=
  bs.length = n.toInt.toNat ∧
    if dataBuffer = none then bs = List.replicate n.toInt.toNat 0 else P.Holds dataBuffer bs

/-- The data is in a block other than `q`. -/
def Supplies (P : Process) (q : Ref) (dataBuffer : PVoid) (n : Int16) (bs : List UInt8) : Prop :=
  Given P dataBuffer n bs ∧ ∀ r, dataBuffer = some r → bs ≠ [] → r.block ≠ q

/-- What a message buffer with `c` in it holds before the data is copied. -/
def cleared (pl : Platform) (c : Contents) (n : Nat) : Contents := framed pl c (List.replicate n 0)

/-- The data when its turn comes to be copied into the message buffer `q`. -/
def copied (pl : Platform) (q : Ref) (c : Contents) (dataBuffer : PVoid) (bs : List UInt8) :
    List UInt8 :=
  match dataBuffer with
  | some r => if r.block = q then (cleared pl c bs.length).slice r.offset bs.length else bs
  | none => bs

/-- Where the data lies in the message buffer, it is what is left there, or put
there, when header and body have been cleared and the lengths stored. -/
def Survives (pl : Platform) (q : Ref) (c : Contents) (dataBuffer : PVoid) (bs : List UInt8) : Prop :=
  ∀ r, dataBuffer = some r → r.block = q → (cleared pl c bs.length).slice r.offset bs.length = bs

variable {A : Assumption} {w v : World} {P : Process} {q : Ref} {c : Contents} {bs : List UInt8}
variable {I : World → Prop} {dataBuffer : PVoid}

theorem copied_eq_iff : copied pl q c dataBuffer bs = bs ↔ Survives pl q c dataBuffer bs := by
  cases dataBuffer with
  | none => exact ⟨fun _ _ hr => absurd hr (by simp), fun _ => rfl⟩
  | some r =>
    simp only [copied, Survives, Option.some.injEq]
    split
    · exact ⟨fun h => by rintro r rfl -; exact h, fun h => h r rfl ‹_›⟩
    · exact ⟨fun _ => by rintro r rfl hq; exact absurd hq ‹_›, fun _ => rfl⟩

@[simp] theorem length_copied : (copied pl q c dataBuffer bs).length = bs.length := by
  cases dataBuffer with
  | none => rfl
  | some r =>
    simp only [copied]
    split
    · exact Contents.length_slice
    · rfl

theorem Supplies.survives (h : Supplies P q dataBuffer n bs) : Survives pl q c dataBuffer bs := by
  intro r hr hq
  by_cases hbs : bs = []
  · rw [hbs]
    rfl
  · exact absurd hq (h.2 r hr hbs)

/-- A new block overlaps with no data that was there before. -/
theorem Process.NewBlock.supplies {P P' : Process} {obj : Object} (hq : NewBlock P P' q obj)
    (hd : Given P dataBuffer n bs) : Supplies P' q dataBuffer n bs := by
  obtain ⟨hlen, hd⟩ := hd
  by_cases hnull : dataBuffer = none
  · refine ⟨⟨hlen, ?_⟩, fun r hr _ => ?_⟩
    · rw [if_pos hnull] at hd ⊢
      exact hd
    · cases hnull.symm.trans hr
  · rw [if_neg hnull] at hd
    refine ⟨⟨hlen, by rw [if_neg hnull]; exact hq.holds hd⟩, fun x hx hne hsame => ?_⟩
    rcases hd with hnone | ⟨y, size, c, hy, hlive, -⟩
    · exact hne hnone
    · cases hx.symm.trans hy
      have hfree := hq.free
      rw [← hsame] at hfree
      cases hfree.symm.trans hlive

/-- Once `q` has been cleared, the data is what will be copied. -/
theorem Process.Rewrites.holds_copied {P' : Process} {size : Nat}
    (h : Rewrites P P' q size (cleared pl c bs.length)) (hq : P.heap.get? q = some (.buffer size c))
    (hd : P.Holds dataBuffer bs) : P'.Holds dataBuffer (copied pl q c dataBuffer bs) := by
  rcases hd with rfl | ⟨r, size', data, rfl, hr, hle, hbs⟩
  · refine .inl (List.eq_nil_of_length_eq_zero ?_)
    simp
  · by_cases hsame : r.block = q
    · rw [hsame, hq] at hr
      cases hr
      refine .inr ⟨r, size, _, rfl, hsame ▸ h.block, by simpa using hle, ?_⟩
      rw [length_copied]
      simp [copied, hsame]
    · refine .inr ⟨r, size', data, rfl, (h.other hsame).trans hr, by simpa using hle, ?_⟩
      simpa [copied, hsame] using hbs

theorem initializePortMessage_eq : initializePortMessage pl portMessage dataBuffer n =
    .call (.rtlZeroMemory portMessage (toSizeT pl (signedTotalLengthOf pl n))) fun _ =>
      .call (.store portMessage PortMessage.offTotalLength
          (leBytes 2 (signedTotalLengthOf pl n).toUInt16.toNat)) fun _ =>
        .call (.store portMessage PortMessage.offDataLength (leBytes 2 n.toUInt16.toNat)) fun _ =>
          if dataBuffer ≠ none then
            rtlCopyMemory (messageBody pl portMessage) dataBuffer (toSizeT pl n)
          else .ret () := rfl

theorem initializePortMessage_copies (hq : w.state.heap.get? q = some (.buffer size c))
    (hfit : pl.sizeofPortMessage + bs.length ≤ size) (hn : 0 ≤ n.toInt)
    (hshort : pl.sizeofPortMessage + bs.length < 32768) (hd : Given w.state dataBuffer n bs)
    (hI : ∀ u, Adds Silent w u → I u) :
    (initializePortMessage pl (some ⟨q, 0⟩) dataBuffer n).safe (system pl A) I
      (fun _ v => Rewrites w.state v.state q size (framed pl c (copied pl q c dataBuffer bs)) ∧
        Adds Silent w v) w := by
  obtain ⟨hlen, hd⟩ := hd
  have hheader : 4 ≤ pl.sizeofPortMessage := by cases pl <;> decide
  have htotal : (signedTotalLengthOf pl n).toInt = pl.sizeofPortMessage + n.toInt :=
    toInt_signedTotalLengthOf (by omega)
  have hsize : toSizeT pl (signedTotalLengthOf pl n) = pl.sizeofPortMessage + bs.length := by
    rw [toSizeT_nonneg (by omega)]
    omega
  have hstored : (signedTotalLengthOf pl n).toUInt16.toNat = pl.sizeofPortMessage + bs.length := by
    rw [toNat_toUInt16 (by omega)]
    omega
  have r₁ := (Rewrites.start hq).zero pl hfit
  have r₂ := r₁.store pl PortMessage.offTotalLength
    (leBytes 2 (pl.sizeofPortMessage + bs.length)) (by simp [PortMessage.offTotalLength]; omega)
  have r₃ := r₂.store pl PortMessage.offDataLength (leBytes 2 bs.length)
    (by simp [PortMessage.offDataLength]; omega)
  have a₀ : Adds Silent w w := .refl w
  have a₁ := a₀.next (S := system pl A) (r := ())
    (o := .rtlZeroMemory (some ⟨q, 0⟩) (pl.sizeofPortMessage + bs.length)) rfl
  have a₂ := a₁.next (S := system pl A) (r := ()) (o := .store (some ⟨q, 0⟩)
    PortMessage.offTotalLength (leBytes 2 (pl.sizeofPortMessage + bs.length))) rfl
  have a₃ := a₂.next (S := system pl A) (r := ()) (o := .store (some ⟨q, 0⟩)
    PortMessage.offDataLength (leBytes 2 bs.length)) rfl
  have hcleared : framed pl c (List.replicate bs.length 0) =
      ((c.zero 0 (pl.sizeofPortMessage + bs.length)).write PortMessage.offTotalLength
        (leBytes 2 (pl.sizeofPortMessage + bs.length))).write PortMessage.offDataLength
          (leBytes 2 bs.length) := by
    rw [framed_replicate (by simp), List.length_replicate]
  rw [initializePortMessage_eq, hsize, hstored, toNat_toUInt16 hn, toSizeT_nonneg hn, ← hlen]
  refine ⟨hI _ a₀, fun _ _ => ⟨hI _ a₁, fun _ _ => ⟨hI _ a₂, fun _ _ => ?_⟩⟩⟩
  split
  · rename_i hdata
    rw [if_neg hdata] at hd
    have hsrc := (show Rewrites _ _ q size (cleared pl c bs.length) from hcleared ▸ r₃).holds_copied
      hq hd
    have hlong : (copied pl q c dataBuffer bs).length = bs.length := length_copied
    have r₄ := r₃.copy pl pl.sizeofPortMessage (hlong ▸ hfit) hsrc
    have a₄ := a₃.next (S := system pl A) (r := ()) (o := .rtlCopyMemory
      (some ⟨q, pl.sizeofPortMessage⟩) dataBuffer bs.length) rfl
    rw [hlong] at r₄
    rw [messageBody_start, framed, hlong]
    exact ⟨hI _ a₃, fun _ _ => ⟨hI _ a₄, r₄, a₄⟩⟩
  · rename_i hdata
    have hnull := not_not.mp hdata
    rw [if_pos hnull, ← hlen] at hd
    have hzeros : copied pl q c dataBuffer bs = List.replicate bs.length 0 := by
      rw [hnull]
      exact hd
    refine ⟨hI _ a₃, ?_, a₃⟩
    rw [hzeros, hcleared]
    exact r₃

/-- Data from elsewhere is copied as it was. -/
theorem initializePortMessage_safe (hq : w.state.heap.get? q = some (.buffer size c))
    (hfit : pl.sizeofPortMessage + bs.length ≤ size) (hn : 0 ≤ n.toInt)
    (hshort : pl.sizeofPortMessage + bs.length < 32768) (hd : Supplies w.state q dataBuffer n bs)
    (hI : ∀ u, Adds Silent w u → I u) :
    (initializePortMessage pl (some ⟨q, 0⟩) dataBuffer n).safe (system pl A) I
      (fun _ v => Rewrites w.state v.state q size (framed pl c bs) ∧ Adds Silent w v) w := by
  have hcopies := initializePortMessage_copies (A := A) hq hfit hn hshort hd.1 hI
  rwa [copied_eq_iff.mpr hd.survives] at hcopies

end AlpcResearch
