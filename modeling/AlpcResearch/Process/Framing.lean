import AlpcResearch.Process.Buffers
import AlpcResearch.Process.Senders
import AlpcResearch.Process.Serving

/-!
# Framing

What a sender makes of its data: a header that is zero but for its two length
fields, followed by the data (`frame`), whatever was in the buffer before. The
kernel takes exactly that (`takes_framed`), and a receiver reads it back as
long as the lengths fit the signed fields they are stored in
(`readMessage_iff`).
-/

namespace AlpcResearch

open Resource Program Process

variable {pl : Platform} {bs : List UInt8} {c : Contents}

def frame (pl : Platform) (bs : List UInt8) : List UInt8 :=
  leBytes 2 bs.length ++ leBytes 2 (pl.sizeofPortMessage + bs.length) ++
    List.replicate (pl.sizeofPortMessage - 4) 0 ++ bs

@[simp] theorem length_frame : (frame pl bs).length = pl.sizeofPortMessage + bs.length := by
  have hheader : 4 ≤ pl.sizeofPortMessage := by cases pl <;> decide
  simp [frame]
  omega

/-- A buffer with `c` in it, after a message of `bs` has been built there. -/
def framed (pl : Platform) (c : Contents) (bs : List UInt8) : Contents :=
  (((c.zero 0 (pl.sizeofPortMessage + bs.length)).write PortMessage.offTotalLength
    (leBytes 2 (pl.sizeofPortMessage + bs.length))).write PortMessage.offDataLength
      (leBytes 2 bs.length)).write pl.sizeofPortMessage bs

theorem framed_dataLength : (framed pl c bs).slice PortMessage.offDataLength 2 =
    leBytes 2 bs.length := by
  have hheader : 4 ≤ pl.sizeofPortMessage := by cases pl <;> decide
  rw [framed, Contents.slice_write_disjoint (.inl (by simp [PortMessage.offDataLength]; omega))]
  exact Contents.slice_write_of_length length_leBytes

theorem framed_totalLength : (framed pl c bs).slice PortMessage.offTotalLength 2 =
    leBytes 2 (pl.sizeofPortMessage + bs.length) := by
  have hheader : 4 ≤ pl.sizeofPortMessage := by cases pl <;> decide
  rw [framed, Contents.slice_write_disjoint (.inl (by simp [PortMessage.offTotalLength]; omega)),
    Contents.slice_write_disjoint (.inr (by simp [PortMessage.offDataLength, PortMessage.offTotalLength]))]
  exact Contents.slice_write_of_length length_leBytes

theorem framed_body : (framed pl c bs).slice pl.sizeofPortMessage bs.length = bs :=
  Contents.slice_write_self

theorem framed_zeros : (framed pl c bs).slice 4 (pl.sizeofPortMessage - 4) =
    List.replicate (pl.sizeofPortMessage - 4) 0 := by
  have hheader : 4 ≤ pl.sizeofPortMessage := by cases pl <;> decide
  rw [framed, Contents.slice_write_disjoint (.inl (by omega)),
    Contents.slice_write_disjoint (.inr (by simp [PortMessage.offDataLength])),
    Contents.slice_write_disjoint (.inr (by simp [PortMessage.offTotalLength])),
    Contents.slice_zero_inside (Nat.zero_le _) (by omega)]

theorem framed_slice :
    (framed pl c bs).slice 0 (pl.sizeofPortMessage + bs.length) = frame pl bs := by
  have hheader : 2 + 2 + (pl.sizeofPortMessage - 4) = pl.sizeofPortMessage := by
    cases pl <;> decide
  calc (framed pl c bs).slice 0 (pl.sizeofPortMessage + bs.length)
      = (framed pl c bs).slice 0 (2 + 2 + (pl.sizeofPortMessage - 4) + bs.length) := by rw [hheader]
    _ = (framed pl c bs).slice PortMessage.offDataLength 2 ++
          (framed pl c bs).slice PortMessage.offTotalLength 2 ++
          (framed pl c bs).slice 4 (pl.sizeofPortMessage - 4) ++
          (framed pl c bs).slice pl.sizeofPortMessage bs.length := by
      rw [Contents.slice_append, Contents.slice_append, Contents.slice_append, hheader,
        Nat.zero_add, Nat.zero_add, Nat.zero_add]
      rfl
    _ = frame pl bs := by
      rw [framed_dataLength, framed_totalLength, framed_zeros, framed_body, frame]

/-- A field of the header behind the lengths. -/
theorem frame_zeros (hlo : 4 ≤ off) (hhi : off + len ≤ pl.sizeofPortMessage) :
    ((frame pl bs).drop off).take len = List.replicate len 0 := by
  have hinside : (((framed pl (fun _ => 0) bs).slice 4 (pl.sizeofPortMessage - 4)).drop
      (off - 4)).take len = (framed pl (fun _ => 0) bs).slice off len := by
    rw [Contents.slice_slice (by omega), Nat.add_sub_cancel' hlo]
  rw [← framed_slice (c := fun _ => 0), Contents.slice_slice (by omega), Nat.zero_add, ← hinside,
    framed_zeros, List.drop_replicate, List.take_replicate, Nat.min_eq_left (by omega)]

/-- No message has been sent yet that it could answer. -/
theorem headerOf_frame (hfit : pl.sizeofPortMessage + bs.length < 65536) :
    headerOf pl (frame pl bs) = ⟨pl.sizeofPortMessage + bs.length, 0, ⟨0, 0⟩, 0⟩ := by
  have htotal : ((frame pl bs).drop PortMessage.offTotalLength).take 2 =
      leBytes 2 (pl.sizeofPortMessage + bs.length) := by
    have hheader : 4 ≤ pl.sizeofPortMessage := by cases pl <;> decide
    rw [← framed_slice (c := fun _ => 0), Contents.slice_slice, Nat.zero_add, framed_totalLength]
    simp only [PortMessage.offTotalLength]
    omega
  have hlen : leNat (leBytes 2 (pl.sizeofPortMessage + bs.length)) =
      pl.sizeofPortMessage + bs.length := by
    rw [leNat_leBytes]
    exact Nat.mod_eq_of_lt hfit
  have htype : PortMessage.offType + 2 ≤ pl.sizeofPortMessage := by cases pl <;> decide
  have hclient : PortMessage.offClientId + sizeofClientId pl ≤ pl.sizeofPortMessage := by
    cases pl <;> decide
  have hid : PortMessage.offMessageId pl + 4 ≤ pl.sizeofPortMessage := by cases pl <;> decide
  have hoff : 4 ≤ PortMessage.offMessageId pl := by cases pl <;> decide
  simp only [headerOf, htotal, hlen, frame_zeros (show 4 ≤ PortMessage.offType by decide) htype,
    frame_zeros (show 4 ≤ PortMessage.offClientId by decide) hclient, frame_zeros hoff hid,
    ClientId.ofBytes, List.take_replicate, List.drop_replicate, leNat_replicate]
  rfl

theorem framed_replicate (h : bs = List.replicate bs.length 0) : framed pl c bs =
    ((c.zero 0 (pl.sizeofPortMessage + bs.length)).write PortMessage.offTotalLength
      (leBytes 2 (pl.sizeofPortMessage + bs.length))).write PortMessage.offDataLength
        (leBytes 2 bs.length) := by
  have hheader : 4 ≤ pl.sizeofPortMessage := by cases pl <;> decide
  refine (congrArg (Contents.write _ pl.sizeofPortMessage) h).trans
    (Contents.write_zeros fun i hlo hhi => ?_)
  rw [Contents.write_above, Contents.write_above, Contents.zero_inside (by omega)]
  · simp [PortMessage.offTotalLength]; omega
  · simp [PortMessage.offDataLength]; omega

/-- The kernel takes the message that has been built, and no more. -/
theorem takes_framed {P : Process} {q : Ref} {size : Nat} {taken : List UInt8}
    (hfit : pl.sizeofPortMessage + bs.length < 65536)
    (hq : P.heap.get? q = some (.buffer size (framed pl c bs)))
    (h : P.Takes (some ⟨q, 0⟩) taken) : taken = frame pl bs := by
  have hlen : leNat ((framed pl c bs).slice (0 + PortMessage.offTotalLength) 2) =
      pl.sizeofPortMessage + bs.length := by
    rw [Nat.zero_add, framed_totalLength, leNat_leBytes]
    exact Nat.mod_eq_of_lt hfit
  have htaken := h.2 ⟨q, 0⟩ size _ rfl (at?_live hq)
  rw [hlen, framed_slice] at htaken
  exact htaken

-- ---------------------------------------------------------------------------
-- What a receiver reads
-- ---------------------------------------------------------------------------

def cshort (bs : List UInt8) : Int := Int.bmod (leNat bs) 65536

/-- What a callback reads through the declared types of `PORT_MESSAGE`:
`DataLength`, `TotalLength`, and `DataLength` bytes from `PortMessage + 1`. -/
structure Reading where
  dataLength : Int
  totalLength : Int
  data : List UInt8
  deriving DecidableEq

def readMessage (pl : Platform) (c : Contents) : Reading where
  dataLength := cshort (c.slice PortMessage.offDataLength 2)
  totalLength := cshort (c.slice PortMessage.offTotalLength 2)
  data := c.slice pl.sizeofPortMessage (cshort (c.slice PortMessage.offDataLength 2)).toNat

/-- The kernel delivers `written` for `msg`: the lengths and the data are
those of `msg`, the other header fields are the kernel's. -/
structure Delivers (pl : Platform) (msg written : List UInt8) : Prop where
  length : written.length = msg.length
  lengths : written.take 4 = msg.take 4
  data : written.drop pl.sizeofPortMessage = msg.drop pl.sizeofPortMessage

theorem Delivers.trans (h : Delivers pl msg written) (h' : Delivers pl written written') :
    Delivers pl msg written' :=
  ⟨h'.length.trans h.length, h'.lengths.trans h.lengths, h'.data.trans h.data⟩

/-- `c` begins with what the kernel has delivered for `msg`. -/
structure Transported (pl : Platform) (msg : List UInt8) (c : Contents) : Prop where
  lengths : c.slice 0 4 = msg.take 4
  body : c.slice pl.sizeofPortMessage (msg.length - pl.sizeofPortMessage) =
    msg.drop pl.sizeofPortMessage

def Begins (bs : List UInt8) (c : Contents) : Prop :=
  ∀ off len, off + len ≤ bs.length → c.slice off len = (bs.drop off).take len

theorem Delivers.transported (h : Delivers pl msg written) (hc : Begins written c)
    (hlen : pl.sizeofPortMessage ≤ msg.length) : Transported pl msg c where
  lengths := by
    have hheader : 4 ≤ pl.sizeofPortMessage := by cases pl <;> decide
    have hwritten := h.length
    rw [hc 0 4 (by omega), List.drop_zero, h.lengths]
  body := by
    have hwritten := h.length
    rw [hc _ _ (by omega), h.data, List.take_of_length_le (by simp)]

theorem leNat_short (h : n < 65536) : leNat (leBytes 2 n) = n := by
  rw [leNat_leBytes]
  exact Nat.mod_eq_of_lt h

theorem cshort_small {n : Nat} (h : n < 32768) : cshort (leBytes 2 n) = (n : Int) := by
  have hn : leNat (leBytes 2 n) = n := leNat_short (by omega)
  have hmod : Int.bmod n 65536 = (n : Int) := Int.bmod_eq_of_le (by omega) (by omega)
  exact (congrArg (fun v : Nat => Int.bmod v 65536) hn).trans hmod

theorem cshort_large {n : Nat} (hlo : 32768 ≤ n) (hhi : n < 65536) :
    cshort (leBytes 2 n) = (n : Int) - 65536 := by
  have hn : leNat (leBytes 2 n) = n := leNat_short hhi
  have hmod : Int.bmod n 65536 = (n : Int) - 65536 := by
    rw [Int.bmod_def]
    omega
  exact (congrArg (fun v : Nat => Int.bmod v 65536) hn).trans hmod

theorem Transported.lengths_eq (h : Transported pl (frame pl bs) c) :
    c.slice PortMessage.offDataLength 2 = leBytes 2 bs.length ∧
      c.slice PortMessage.offTotalLength 2 = leBytes 2 (pl.sizeofPortMessage + bs.length) := by
  have h4 : c.slice 0 (2 + 2) =
      leBytes 2 bs.length ++ leBytes 2 (pl.sizeofPortMessage + bs.length) := by
    rw [h.lengths, frame, List.append_assoc, List.take_append_of_le_length (by simp)]
    exact List.take_of_length_le (by simp)
  rw [Contents.slice_append] at h4
  exact List.append_inj h4 (by simp)

theorem Transported.body_eq (h : Transported pl (frame pl bs) c) :
    c.slice pl.sizeofPortMessage bs.length = bs := by
  have hheader : 4 ≤ pl.sizeofPortMessage := by cases pl <;> decide
  have hbody := h.body
  rw [length_frame, Nat.add_sub_cancel_left] at hbody
  rw [hbody, frame]
  exact List.drop_left' (by simp; omega)

/-- Up to 32767 bytes in all the receiver reads what was sent. -/
theorem readMessage_small (hfit : pl.sizeofPortMessage + bs.length < 32768)
    (h : Transported pl (frame pl bs) c) :
    readMessage pl c = ⟨bs.length, (pl.sizeofPortMessage + bs.length : Nat), bs⟩ := by
  obtain ⟨hdata, htotal⟩ := h.lengths_eq
  have hn : cshort (leBytes 2 bs.length) = bs.length := cshort_small (by omega)
  simp only [readMessage, hdata, htotal, hn, cshort_small hfit, Int.toNat_natCast, h.body_eq]

/-- Beyond that `TotalLength` reads as negative. -/
theorem readMessage_large (hlo : 32768 ≤ pl.sizeofPortMessage + bs.length)
    (hhi : pl.sizeofPortMessage + bs.length < 65536) (h : Transported pl (frame pl bs) c) :
    (readMessage pl c).totalLength < 0 := by
  obtain ⟨-, htotal⟩ := h.lengths_eq
  simp only [readMessage, htotal, cshort_large hlo hhi]
  omega

theorem readMessage_iff (hfit : pl.sizeofPortMessage + bs.length < 65536)
    (h : Transported pl (frame pl bs) c) :
    readMessage pl c = ⟨bs.length, (pl.sizeofPortMessage + bs.length : Nat), bs⟩ ↔
      pl.sizeofPortMessage + bs.length < 32768 := by
  constructor
  · intro hread
    by_contra hlarge
    have htotal := readMessage_large (Nat.le_of_not_lt hlarge) hfit h
    rw [hread] at htotal
    exact absurd htotal (by simp only; omega)
  · exact fun hsmall => readMessage_small hsmall h

-- ---------------------------------------------------------------------------
-- What the senders hand over
-- ---------------------------------------------------------------------------

def handed : Ev → Option (List UInt8)
  | ⟨.alpcSendWaitReceivePort a, r⟩ => if a.sendMessage = none then none else some r.taken
  | ⟨.alpcConnectPort a, r⟩ => if a.connectionMessage = none then none else some r.taken
  | _ => none

def Silent (e : Ev) : Prop := handed e = none

/-- Since `w` the block `q` has been allocated, a message of `bs` has been built
in it, and nothing has been sent. -/
structure Built (pl : Platform) (w v : World) (q : Ref) (bs : List UInt8) : Prop where
  block : ∃ c, NewBlock w.state v.state q
    (.buffer (pl.sizeofPortMessage + bs.length) (framed pl c bs))
  silent : Adds Silent w v

theorem Built.takes {w v : World} {taken : List UInt8} (h : Built pl w v q bs)
    (hfit : pl.sizeofPortMessage + bs.length < 65536)
    (ht : v.state.Takes (some ⟨q, 0⟩) taken) : taken = frame pl bs := by
  obtain ⟨c, hblock⟩ := h.block
  exact takes_framed hfit hblock.block ht

section Senders

variable {A : Assumption} {w : World} {n : UInt16} {data : PVoid} {api : HeapApi}
variable {I : World → Prop} {Q : α → World → Prop}

@[simp] theorem messageBody_start : messageBody pl (some ⟨q, 0⟩) = some ⟨q, pl.sizeofPortMessage⟩ := by
  simp [messageBody, Ptr.add]

def afterFilling (pl : Platform) (P : Process) (p data : PVoid) (n : UInt16) : Process :=
  (((P.effect pl (.rtlZeroMemory p (totalLengthOf pl n).toNat) ()).effect pl
    (.store p PortMessage.offTotalLength (leBytes 2 (totalLengthOf pl n).toNat)) ()).effect pl
      (.store p PortMessage.offDataLength (leBytes 2 n.toNat)) ()).effect pl
        (.rtlCopyMemory (messageBody pl p) data n.toNat) ()

theorem newBlock_filled {P P' : Process} (hfit : pl.sizeofPortMessage + n.toNat < 2 ^ 16)
    (hd : P.Holds data bs) (hn : bs.length = n.toNat)
    (hq : NewBlock P P' q (.buffer (totalLengthOf pl n).toNat c)) :
    NewBlock P (afterFilling pl P' (some ⟨q, 0⟩) data n) q
      (.buffer (pl.sizeofPortMessage + bs.length) (framed pl c bs)) := by
  have htotal := totalLengthOf_fits hfit
  have hheader : 4 ≤ pl.sizeofPortMessage := by cases pl <;> decide
  have q₁ := hq.rewrites ((Rewrites.start hq.block).zero pl (Nat.le_refl _))
  have q₂ := q₁.rewrites ((Rewrites.start q₁.block).store pl PortMessage.offTotalLength
    (leBytes 2 (totalLengthOf pl n).toNat) (by simp [PortMessage.offTotalLength]; omega))
  have q₃ := q₂.rewrites ((Rewrites.start q₂.block).store pl PortMessage.offDataLength
    (leBytes 2 n.toNat) (by simp [PortMessage.offDataLength]; omega))
  have q₄ := q₃.rewrites ((Rewrites.start q₃.block).copy pl pl.sizeofPortMessage (by omega)
    (q₃.holds hd))
  rw [afterFilling, framed, hn, ← htotal, messageBody_start]
  rw [hn] at q₄
  exact q₄

theorem useBlock_safe {send : PVoid → Proc α} (hfit : pl.sizeofPortMessage + n.toNat < 2 ^ 16)
    (hd : w.state.Holds data bs) (hn : bs.length = n.toNat)
    (hq : NewBlock w.state v.state q (.buffer (totalLengthOf pl n).toNat c))
    (hv : Adds Silent w v) (hI : ∀ u, Adds Silent w u → I u)
    (hsend : ∀ u, Built pl w u q bs → (send (some ⟨q, 0⟩)).safe (system pl A) I Q u) :
    (useBlock pl data n send (some ⟨q, 0⟩)).safe (system pl A) I Q v := by
  have a₁ := hv.next (S := system pl A)
    (o := .rtlZeroMemory (some ⟨q, 0⟩) (totalLengthOf pl n).toNat) (r := ()) rfl
  have a₂ := a₁.next (S := system pl A) (r := ())
    (o := .store (some ⟨q, 0⟩) PortMessage.offTotalLength (leBytes 2 (totalLengthOf pl n).toNat)) rfl
  have a₃ := a₂.next (S := system pl A) (r := ())
    (o := .store (some ⟨q, 0⟩) PortMessage.offDataLength (leBytes 2 n.toNat)) rfl
  refine ⟨hI _ hv, fun _ _ => ⟨hI _ a₁, fun _ _ => ⟨hI _ a₂, fun _ _ => ⟨hI _ a₃, fun _ _ => ?_⟩⟩⟩⟩
  exact hsend _ ⟨⟨c, newBlock_filled hfit hd hn hq⟩, a₃.next rfl⟩

/-- A sender refuses, runs out of memory, or sends from a block of its own with
the message in it, which it releases. -/
theorem withPortMessage_safe {fail : NtStatus → α} {send : PVoid → Proc α}
    (hfit : pl.sizeofPortMessage + n.toNat < 2 ^ 16) (hd : w.state.Holds data bs)
    (hn : bs.length = n.toNat) (hI : ∀ u, Adds Silent w u → I u)
    (hfail : ∀ status u, status = statusBufferOverflow ∧
        pl.alpcMaxAllowedMessageLength < pl.sizeofPortMessage + n.toNat ∨
        status = statusInsufficientResources → u.state = w.state → Adds Silent w u → Q (fail status) u)
    (hsend : ∀ q u, Built pl w u q bs → (send (some ⟨q, 0⟩)).safe (system pl A) I
      (fun a v => I ((system pl A).next v (.free api (some ⟨q, 0⟩)) ()) ∧
        Q a ((system pl A).next v (.free api (some ⟨q, 0⟩)) ())) u) :
    (withPortMessage api pl data n fail send).safe (system pl A) I Q w := by
  have hw : Adds Silent w w := .refl w
  rw [withPortMessage_eq]
  split
  · rename_i hlong
    rw [totalLengthOf_fits hfit] at hlong
    exact ⟨hI w hw, hfail _ w (.inl ⟨rfl, hlong⟩) rfl hw⟩
  refine ⟨hI w hw, fun r hr => ?_⟩
  have hnext : Adds Silent w ((system pl A).next w (.allocate api _) r) := hw.next rfl
  cases hp : r.pointer with
  | none =>
    have hsame : w.state.effect pl (.allocate api (.buffer (totalLengthOf pl n).toNat)) r = w.state :=
      effect_eq_self (by simp [heapAfter, hp]) rfl rfl
    simp only [hp]
    exact ⟨hI _ hnext, hfail _ _ (.inr rfl) hsame hnext⟩
  | some p =>
    obtain ⟨q, rfl, hq⟩ := newBlock_allocate hr.1 hp
    obtain ⟨c, hc⟩ := layout_buffer hr.1.1
    rw [hc] at hq
    simp only [hp]
    refine safe_bind (useBlock_safe hfit hd hn hq hnext hI fun u hu => ?_)
    refine safe_imp (hsend q u hu) (fun _ h => h) fun a v hv hQ => ?_
    exact ⟨hv, fun _ _ => hQ⟩

end Senders

end AlpcResearch
