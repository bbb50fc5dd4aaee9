import Mathlib.Data.List.GetD
import AlpcResearch.AdvancedServer
import AlpcResearch.Process.Script
import AlpcResearch.Process.SignedFraming

/-!
# The bounds of `SrvInitializePortMessage`

The check compares a `SHORT` with a limit no `SHORT` exceeds, so the function
never refuses. It keeps to the part of the buffer it announces, and leaves a
well-formed message there, while the length is not negative, the whole message
stays below 2^15 and the payload is not lost when the buffer is cleared; a
negative length gets through unharmed only where nothing is copied and the rest
of the header happens to be zero.
-/

namespace AlpcResearch.AdvancedServer

open Resource Program Process

variable {pl : Platform} {n : Int16} {dataBuffer : PVoid} {w w' : World} {q : Ref}
variable {c : Contents} {bs : List UInt8}

def writes : Op → Option (PVoid × Nat)
  | .rtlZeroMemory p length => some (p, length)
  | .rtlCopyMemory dst _ length => some (dst, length)
  | .store p offset bytes => some (p.map (·.add offset), bytes.length)
  | _ => none

/-- From `w` to `w'` the message of `n` bytes `bs` has been built in `q`. -/
structure Initialized (pl : Platform) (q : Ref) (n : Int16) (bs : List UInt8) (w w' : World) :
    Prop where
  /-- Only the announced part of the buffer is written. -/
  within : ∀ e ∈ newEvents w w', ∀ p length, writes e.op = some (some p, length) → length ≠ 0 →
    p.block = q ∧ (p.offset + length : Int) ≤ pl.sizeofPortMessage + n.toInt
  fits : pl.sizeofPortMessage + n.toInt ≤ alpcMaxAllowedMessageLength
  /-- No length was negative before it became a `SIZE_T`. -/
  positive : ∀ e ∈ newEvents w w', ∀ p length, writes e.op = some (p, length) → length < 2 ^ 15
  message : ∃ data, w'.state.heap.get? q = some (.buffer alpcMaxAllowedMessageLength data) ∧
    cshort (data.slice PortMessage.offTotalLength 2) = pl.sizeofPortMessage + n.toInt ∧
    cshort (data.slice PortMessage.offDataLength 2) = n.toInt ∧
    data.slice 4 (pl.sizeofPortMessage - 4) = List.replicate (pl.sizeofPortMessage - 4) 0 ∧
    data.slice pl.sizeofPortMessage bs.length = bs

/-- Refused with nothing done, or done. -/
def BoundsLaw (pl : Platform) (q : Ref) (n : Int16) (bs : List UInt8) (w w' : World)
    (result : Bool) : Prop :=
  result = false ∧ newEvents w w' = [] ∨ result = true ∧ Initialized pl q n bs w w'

/-- The condition: the lengths are in range and the payload survives, or a
negative length meets no data and a header whose uncleared end is zero. -/
def InRange (pl : Platform) (q : Ref) (n : Int16) (dataBuffer : PVoid) (bs : List UInt8)
    (c : Contents) : Prop :=
  0 ≤ n.toInt ∧ pl.sizeofPortMessage + n.toInt ≤ 32767 ∧ Survives pl q c dataBuffer bs ∨
    n.toInt < 0 ∧ dataBuffer = none ∧ 4 ≤ pl.sizeofPortMessage + n.toInt ∧
      ∀ i : Nat, pl.sizeofPortMessage + n.toInt ≤ i → i < pl.sizeofPortMessage → c i = 0

-- ---------------------------------------------------------------------------
-- What it does
-- ---------------------------------------------------------------------------

/-- The events up to the data, the latest first. -/
def headerEvents (pl : Platform) (q : Ref) (n : Int16) : List Ev :=
  [⟨.store (some ⟨q, 0⟩) PortMessage.offDataLength (leBytes 2 n.toUInt16.toNat), ()⟩,
    ⟨.store (some ⟨q, 0⟩) PortMessage.offTotalLength
      (leBytes 2 (signedTotalLengthOf pl n).toUInt16.toNat), ()⟩,
    ⟨.rtlZeroMemory (some ⟨q, 0⟩) (toSizeT pl (signedTotalLengthOf pl n)), ()⟩]

def copyEvents (pl : Platform) (q : Ref) (dataBuffer : PVoid) (n : Int16) : List Ev :=
  if dataBuffer = none then []
  else [⟨.rtlCopyMemory (some ⟨q, pl.sizeofPortMessage⟩) dataBuffer (toSizeT pl n), ()⟩]

theorem srvInitializePortMessage_eq : srvInitializePortMessage pl portMessage dataBuffer n =
    initializePortMessage pl portMessage dataBuffer n >>= fun _ => .ret true :=
  if_neg (toInt_le_limit _)

theorem srvInitializePortMessage_events {A : Assumption}
    (h : Ends (system pl A) (srvInitializePortMessage pl (some ⟨q, 0⟩) dataBuffer n) w result w') :
    result = true ∧ newEvents w w' = copyEvents pl q dataBuffer n ++ headerEvents pl q n := by
  rw [srvInitializePortMessage_eq, initializePortMessage_eq] at h
  obtain ⟨_, _, h⟩ := ends_call.mp h
  obtain ⟨_, _, h⟩ := ends_call.mp h
  obtain ⟨_, _, h⟩ := ends_call.mp h
  obtain ⟨_, v, hcopy, hret⟩ := ends_bind.mp h
  obtain ⟨rfl, rfl⟩ := ends_ret.mp hret
  refine ⟨rfl, newEvents_eq ?_⟩
  by_cases hdata : dataBuffer = none
  · rw [if_neg (not_not.mpr hdata)] at hcopy
    obtain ⟨-, rfl⟩ := ends_ret.mp hcopy
    simp [copyEvents, headerEvents, hdata]
  · rw [if_pos hdata] at hcopy
    obtain ⟨_, _, hcopy⟩ := ends_call.mp hcopy
    obtain ⟨-, rfl⟩ := ends_ret.mp hcopy
    simp [copyEvents, headerEvents, hdata]

/-- Where no data is copied, the buffer is cleared as far as the total length
goes and the two lengths are stored. -/
theorem srvInitializePortMessage_header {A : Assumption}
    (hq : w.state.heap.get? q = some (.buffer size c)) (hsize : 4 ≤ size)
    (htotal : toSizeT pl (signedTotalLengthOf pl n) ≤ size)
    (h : Ends (system pl A) (srvInitializePortMessage pl (some ⟨q, 0⟩) none n) w result w') :
    w'.state.heap.get? q = some (.buffer size
      (((c.zero 0 (toSizeT pl (signedTotalLengthOf pl n))).write PortMessage.offTotalLength
        (leBytes 2 (signedTotalLengthOf pl n).toUInt16.toNat)).write PortMessage.offDataLength
          (leBytes 2 n.toUInt16.toNat))) := by
  rw [srvInitializePortMessage_eq, initializePortMessage_eq] at h
  obtain ⟨_, _, h⟩ := ends_call.mp h
  obtain ⟨_, _, h⟩ := ends_call.mp h
  obtain ⟨_, _, h⟩ := ends_call.mp h
  obtain ⟨_, v, hcopy, hret⟩ := ends_bind.mp h
  obtain ⟨-, rfl⟩ := ends_ret.mp hret
  rw [if_neg (not_not.mpr rfl)] at hcopy
  obtain ⟨-, rfl⟩ := ends_ret.mp hcopy
  have r₁ := (Rewrites.start hq).zero pl htotal
  have r₂ := r₁.store pl PortMessage.offTotalLength
    (leBytes 2 (signedTotalLengthOf pl n).toUInt16.toNat)
    (by simp [PortMessage.offTotalLength]; omega)
  have r₃ := r₂.store pl PortMessage.offDataLength (leBytes 2 n.toUInt16.toNat)
    (by simp [PortMessage.offDataLength]; omega)
  exact r₃.block

-- ---------------------------------------------------------------------------
-- The law
-- ---------------------------------------------------------------------------

theorem headerEvents_writes {e : Ev} (he : e ∈ headerEvents pl q n)
    (hw : writes e.op = some (p, length)) :
    (p = some ⟨q, 0⟩ ∧ length = toSizeT pl (signedTotalLengthOf pl n)) ∨
      ∃ off, p = some ⟨q, off⟩ ∧ length = 2 ∧ off + 2 ≤ 4 := by
  simp only [headerEvents, List.mem_cons, List.not_mem_nil, or_false] at he
  rcases he with rfl | rfl | rfl
  · cases hw
    exact .inr ⟨_, rfl, length_leBytes, by simp [PortMessage.offDataLength]⟩
  · cases hw
    exact .inr ⟨_, rfl, length_leBytes, by simp [PortMessage.offTotalLength]⟩
  · cases hw
    exact .inl ⟨rfl, rfl⟩

theorem copyEvents_writes {e : Ev} (he : e ∈ copyEvents pl q dataBuffer n)
    (hw : writes e.op = some (p, length)) :
    p = some ⟨q, pl.sizeofPortMessage⟩ ∧ length = toSizeT pl n := by
  unfold copyEvents at he
  split at he
  · cases he
  · rw [List.mem_singleton.mp he] at hw
    cases hw
    exact ⟨rfl, rfl⟩

/-- Nothing is written past the announced end, and the message is there. -/
theorem initialized_of_writes (hshort : pl.sizeofPortMessage + n.toInt ≤ 32767)
    (hwrites : ∀ e ∈ newEvents w w', ∀ p length, writes e.op = some (p, length) →
      ∃ off, p = some ⟨q, off⟩ ∧ (off + length : Int) ≤ pl.sizeofPortMessage + n.toInt)
    (hq : w'.state.heap.get? q = some (.buffer alpcMaxAllowedMessageLength c))
    (htotal : cshort (c.slice PortMessage.offTotalLength 2) = pl.sizeofPortMessage + n.toInt)
    (hdata : cshort (c.slice PortMessage.offDataLength 2) = n.toInt)
    (hzeros : c.slice 4 (pl.sizeofPortMessage - 4) = List.replicate (pl.sizeofPortMessage - 4) 0)
    (hbody : c.slice pl.sizeofPortMessage bs.length = bs) : Initialized pl q n bs w w' where
  within := by
    intro e he p length hw _
    obtain ⟨off, hp, hle⟩ := hwrites e he _ length hw
    cases hp
    exact ⟨rfl, hle⟩
  fits := by
    simp only [alpcMaxAllowedMessageLength]
    omega
  positive := by
    intro e he p length hw
    obtain ⟨off, -, hle⟩ := hwrites e he _ length hw
    omega
  message := ⟨c, hq, htotal, hdata, hzeros, hbody⟩

theorem initialized_of_frame (hn : 0 ≤ n.toInt) (hshort : pl.sizeofPortMessage + n.toInt ≤ 32767)
    (hlen : bs.length = n.toInt.toNat)
    (hevents : newEvents w w' = copyEvents pl q dataBuffer n ++ headerEvents pl q n)
    (hq : w'.state.heap.get? q = some (.buffer alpcMaxAllowedMessageLength (framed pl c bs))) :
    Initialized pl q n bs w w' := by
  have hheader : 24 ≤ pl.sizeofPortMessage := by cases pl <;> decide
  have htotal : (signedTotalLengthOf pl n).toInt = pl.sizeofPortMessage + n.toInt :=
    toInt_signedTotalLengthOf (by omega)
  have hsize : toSizeT pl (signedTotalLengthOf pl n) = (signedTotalLengthOf pl n).toInt.toNat :=
    toSizeT_nonneg (by omega)
  have hdata : toSizeT pl n = n.toInt.toNat := toSizeT_nonneg hn
  have hwrites : ∀ e ∈ newEvents w w', ∀ p length, writes e.op = some (p, length) →
      ∃ off, p = some ⟨q, off⟩ ∧ (off + length : Int) ≤ pl.sizeofPortMessage + n.toInt := by
    intro e he p length hw
    rw [hevents] at he
    rcases List.mem_append.mp he with he | he
    · obtain ⟨rfl, rfl⟩ := copyEvents_writes he hw
      exact ⟨_, rfl, by omega⟩
    · rcases headerEvents_writes he hw with ⟨rfl, rfl⟩ | ⟨off, rfl, rfl, hoff⟩
      · exact ⟨0, rfl, by omega⟩
      · exact ⟨off, rfl, by omega⟩
  refine initialized_of_writes hshort hwrites hq ?_ ?_ framed_zeros framed_body
  · rw [framed_totalLength, cshort_small (by omega)]
    omega
  · rw [framed_dataLength, cshort_small (by omega)]
    omega

/-- A negative length, nothing copied, and the rest of the header zero. -/
theorem initialized_of_header (hn : n.toInt < 0) (hstores : 4 ≤ pl.sizeofPortMessage + n.toInt)
    (hrest : ∀ i : Nat, pl.sizeofPortMessage + n.toInt ≤ i → i < pl.sizeofPortMessage → c i = 0)
    (hlen : bs.length = n.toInt.toNat)
    (hevents : newEvents w w' = headerEvents pl q n)
    (hq : w'.state.heap.get? q = some (.buffer alpcMaxAllowedMessageLength
      (((c.zero 0 (toSizeT pl (signedTotalLengthOf pl n))).write PortMessage.offTotalLength
        (leBytes 2 (signedTotalLengthOf pl n).toUInt16.toNat)).write PortMessage.offDataLength
          (leBytes 2 n.toUInt16.toNat)))) :
    Initialized pl q n bs w w' := by
  have hheader : pl.sizeofPortMessage ≤ 40 := by cases pl <;> decide
  have htotal : (signedTotalLengthOf pl n).toInt = pl.sizeofPortMessage + n.toInt :=
    toInt_signedTotalLengthOf (by omega)
  have hsize : toSizeT pl (signedTotalLengthOf pl n) = (signedTotalLengthOf pl n).toInt.toNat :=
    toSizeT_nonneg (by omega)
  have hwrites : ∀ e ∈ newEvents w w', ∀ p length, writes e.op = some (p, length) →
      ∃ off, p = some ⟨q, off⟩ ∧ (off + length : Int) ≤ pl.sizeofPortMessage + n.toInt := by
    intro e he p length hw
    rw [hevents] at he
    rcases headerEvents_writes he hw with ⟨rfl, rfl⟩ | ⟨off, rfl, rfl, hoff⟩
    · exact ⟨0, rfl, by omega⟩
    · exact ⟨off, rfl, by omega⟩
  refine initialized_of_writes (by omega) hwrites hq ?_ ?_ ?_ ?_
  · rw [Contents.slice_write_disjoint (.inr (by simp [PortMessage.offDataLength,
      PortMessage.offTotalLength])), Contents.slice_write_of_length length_leBytes,
      cshort_toUInt16, htotal]
  · rw [Contents.slice_write_of_length length_leBytes, cshort_toUInt16]
  · refine Contents.slice_of_zeros fun i hlo hhi => ?_
    rw [Contents.write_above (by simp [PortMessage.offDataLength]; omega),
      Contents.write_above (by simp [PortMessage.offTotalLength]; omega)]
    by_cases hcleared : i < toSizeT pl (signedTotalLengthOf pl n)
    · exact Contents.zero_inside (by omega)
    · rw [Contents.zero_outside (by omega)]
      exact hrest i (by omega) (by omega)
  · have hnone : bs = [] := List.eq_nil_of_length_eq_zero (by omega)
    rw [hnone]
    rfl

/-- With lengths in range the buffer has the message of what was copied. -/
theorem srvInitializePortMessage_copies {A : Assumption}
    (hq : w.state.heap.get? q = some (.buffer alpcMaxAllowedMessageLength c)) (hn : 0 ≤ n.toInt)
    (hshort : pl.sizeofPortMessage + n.toInt ≤ 32767) (hd : Given w.state dataBuffer n bs)
    (h : Ends (system pl A) (srvInitializePortMessage pl (some ⟨q, 0⟩) dataBuffer n) w result w') :
    w'.state.heap.get? q = some (.buffer alpcMaxAllowedMessageLength
      (framed pl c (copied pl q c dataBuffer bs))) := by
  have hlen := hd.1
  have hfit : pl.sizeofPortMessage + bs.length ≤ alpcMaxAllowedMessageLength := by
    simp only [alpcMaxAllowedMessageLength]
    omega
  have hsafe := initializePortMessage_copies (A := A) (I := fun _ => True) hq hfit hn (by omega) hd
    fun _ _ => trivial
  rw [srvInitializePortMessage_eq] at h
  obtain ⟨_, v, hbuilt, hret⟩ := ends_bind.mp h
  obtain ⟨-, rfl⟩ := ends_ret.mp hret
  exact (safe_ends hsafe hbuilt).1.block

/-- The message has the payload only if the payload has survived. -/
theorem survives_of_initialized
    (hq : w.state.heap.get? q = some (.buffer alpcMaxAllowedMessageLength c)) (hn : 0 ≤ n.toInt)
    (hshort : pl.sizeofPortMessage + n.toInt ≤ 32767) (hd : Given w.state dataBuffer n bs)
    (h : Ends (system pl anyKernel) (srvInitializePortMessage pl (some ⟨q, 0⟩) dataBuffer n) w
      result w') (hi : Initialized pl q n bs w w') : Survives pl q c dataBuffer bs := by
  obtain ⟨data, hdata, -, -, -, hbody⟩ := hi.message
  cases (srvInitializePortMessage_copies hq hn hshort hd h).symm.trans hdata
  have hcopied : (framed pl c (copied pl q c dataBuffer bs)).slice pl.sizeofPortMessage
      (copied pl q c dataBuffer bs).length = copied pl q c dataBuffer bs := framed_body
  rw [length_copied] at hcopied
  exact copied_eq_iff.mp (hcopied.symm.trans hbody)

theorem inRange_of_initialized
    (hq : w.state.heap.get? q = some (.buffer alpcMaxAllowedMessageLength c))
    (hd : Given w.state dataBuffer n bs)
    (h : Ends (system pl anyKernel) (srvInitializePortMessage pl (some ⟨q, 0⟩) dataBuffer n) w
      result w') (hi : Initialized pl q n bs w w') : InRange pl q n dataBuffer bs c := by
  have hheader : 24 ≤ pl.sizeofPortMessage ∧ pl.sizeofPortMessage ≤ 40 := by cases pl <;> decide
  have hlow := n.le_toInt
  obtain ⟨-, hevents⟩ := srvInitializePortMessage_events h
  have hzero := hi.within ⟨.rtlZeroMemory (some ⟨q, 0⟩) (toSizeT pl (signedTotalLengthOf pl n)), ()⟩
    (by simp [hevents, headerEvents]) _ _ rfl
  have hstore := hi.within ⟨.store (some ⟨q, 0⟩) PortMessage.offTotalLength
    (leBytes 2 (signedTotalLengthOf pl n).toUInt16.toNat), ()⟩
    (by simp [hevents, headerEvents]) _ _ rfl (by simp)
  have hstores : 4 ≤ pl.sizeofPortMessage + n.toInt := by
    have hle := hstore.2
    simp [Ptr.add, PortMessage.offTotalLength] at hle
    omega
  have hshort : pl.sizeofPortMessage + n.toInt ≤ 32767 := by
    by_contra hlarge
    have hhuge : 2 ^ 31 ≤ toSizeT pl (signedTotalLengthOf pl n) :=
      toSizeT_neg (signedTotalLengthOf_wraps (by omega))
    have hle := (hzero (by omega)).2
    have hlt := n.toInt_lt
    simp only at hle
    omega
  by_cases hn : 0 ≤ n.toInt
  · exact .inl ⟨hn, hshort, survives_of_initialized hq hn hshort hd h hi⟩
  have hnone : dataBuffer = none := by
    by_contra hdata
    have hhuge : 2 ^ 31 ≤ toSizeT pl n := toSizeT_neg (by omega)
    have hcopy := hi.within ⟨.rtlCopyMemory (some ⟨q, pl.sizeofPortMessage⟩) dataBuffer
      (toSizeT pl n), ()⟩ (by simp [hevents, copyEvents, hdata]) _ _ rfl (by omega)
    have hle := hcopy.2
    simp only at hle
    omega
  subst hnone
  refine .inr ⟨by omega, rfl, hstores, fun i hlo hhi => ?_⟩
  have htotal : (signedTotalLengthOf pl n).toInt = pl.sizeofPortMessage + n.toInt :=
    toInt_signedTotalLengthOf (by omega)
  have hsize : toSizeT pl (signedTotalLengthOf pl n) = (signedTotalLengthOf pl n).toInt.toNat :=
    toSizeT_nonneg (by omega)
  obtain ⟨data, hdata, -, -, hzeros, -⟩ := hi.message
  have hdone := srvInitializePortMessage_header hq (by decide)
    (by simp only [alpcMaxAllowedMessageLength]; omega) h
  cases hdone.symm.trans hdata
  have hread := congrArg (fun l => l.getD (i - 4) 0) hzeros
  rw [Contents.getD_slice (by omega), Nat.add_sub_cancel' (by omega),
    Contents.write_above (by simp [PortMessage.offDataLength]; omega),
    Contents.write_above (by simp [PortMessage.offTotalLength]; omega),
    Contents.zero_outside (by omega)] at hread
  rw [hread]
  exact List.getD_replicate 0 (by omega)

/-- For every prior content of the buffer, every length and every data, also
data that lies in the buffer. -/
theorem initialize_bounds_iff
    (hq : w.state.heap.get? q = some (.buffer alpcMaxAllowedMessageLength c))
    (hd : Given w.state dataBuffer n bs)
    (h : Ends (system pl anyKernel) (srvInitializePortMessage pl (some ⟨q, 0⟩) dataBuffer n) w
      result w') :
    BoundsLaw pl q n bs w w' result ↔ InRange pl q n dataBuffer bs c := by
  obtain ⟨rfl, hevents⟩ := srvInitializePortMessage_events h
  constructor
  · rintro (⟨hfalse, -⟩ | ⟨-, hi⟩)
    · cases hfalse
    · exact inRange_of_initialized hq hd h hi
  · rintro (⟨hn, hshort, hsurvives⟩ | ⟨hn, rfl, hstores, hrest⟩)
    · have hbuilt := srvInitializePortMessage_copies hq hn hshort hd h
      rw [copied_eq_iff.mpr hsurvives] at hbuilt
      exact .inr ⟨rfl, initialized_of_frame hn hshort hd.1 hevents hbuilt⟩
    · have hheader : pl.sizeofPortMessage ≤ 40 := by cases pl <;> decide
      have hsize : toSizeT pl (signedTotalLengthOf pl n) ≤ alpcMaxAllowedMessageLength := by
        have htotal : (signedTotalLengthOf pl n).toInt = pl.sizeofPortMessage + n.toInt :=
          toInt_signedTotalLengthOf (by omega)
        rw [toSizeT_nonneg (by omega)]
        simp only [alpcMaxAllowedMessageLength]
        omega
      exact .inr ⟨rfl, initialized_of_header hn hstores hrest hd.1 hevents
        (srvInitializePortMessage_header hq (by decide) hsize h)⟩

def clientWith : World where
  state := {
    heap := (Table.empty.acquire 0 (.buffer alpcMaxAllowedMessageLength fun _ => 0)).acquire 1
      (.buffer 1 fun _ => 7)
    handles := .empty
    faults := [] }
  log := []

def initializeIn (dataBuffer : PVoid) (n : Int16) : Option (Bool × World) :=
  (srvInitializePortMessage .x64 (some ⟨⟨0, 0⟩, 0⟩) dataBuffer n).replay (system .x64 anyKernel)
    (Environment.calm.oracle .x64 anyKernel) clientWith

theorem initializeIn_ends (h : initializeIn dataBuffer n = some (result, w')) :
    Ends (system .x64 anyKernel) (srvInitializePortMessage .x64 (some ⟨⟨0, 0⟩, 0⟩) dataBuffer n)
      clientWith result w' :=
  replay_ends (Environment.oracle_sound _) h

theorem clientWith_given : Given clientWith.state (some ⟨⟨1, 1⟩, 0⟩) 1 [7] := by
  refine ⟨rfl, ?_⟩
  rw [if_neg (by decide)]
  exact .inr ⟨_, 1, fun _ => 7, rfl, rfl, by decide, rfl⟩

theorem initialize_bounds_iff_one : ∃ result w',
    initializeIn (some ⟨⟨1, 1⟩, 0⟩) 1 = some (result, w') ∧
    (BoundsLaw .x64 ⟨0, 0⟩ 1 [7] clientWith w' result ↔
      InRange .x64 ⟨0, 0⟩ 1 (some ⟨⟨1, 1⟩, 0⟩) [7] fun _ => 0) := by
  obtain ⟨⟨result, w'⟩, h⟩ := Option.isSome_iff_exists.mp
    (show (initializeIn (some ⟨⟨1, 1⟩, 0⟩) 1).isSome by decide)
  exact ⟨result, w', h, initialize_bounds_iff rfl clientWith_given (initializeIn_ends h)⟩

/-- A length of -1: the copy is given 2^64 - 1 bytes. -/
theorem initialize_bounds_negative : ∃ result w',
    Ends (system .x64 anyKernel)
      (srvInitializePortMessage .x64 (some ⟨⟨0, 0⟩, 0⟩) (some ⟨⟨1, 1⟩, 0⟩) (-1)) clientWith result w' ∧
    ¬ BoundsLaw .x64 ⟨0, 0⟩ (-1) [] clientWith w' result := by
  obtain ⟨⟨result, w'⟩, h⟩ := Option.isSome_iff_exists.mp
    (show (initializeIn (some ⟨⟨1, 1⟩, 0⟩) (-1)).isSome by decide)
  have hends := initializeIn_ends h
  have hgiven : Given clientWith.state (some ⟨⟨1, 1⟩, 0⟩) (-1) [] :=
    ⟨rfl, by rw [if_neg (by decide)]; exact .inl rfl⟩
  refine ⟨result, w', hends, ?_⟩
  rintro (⟨hfalse, -⟩ | ⟨-, hi⟩)
  · cases (srvInitializePortMessage_events hends).1.symm.trans hfalse
  · rcases inRange_of_initialized rfl hgiven hends hi with ⟨hn, -⟩ | ⟨-, hnone, -⟩
    · exact absurd hn (by decide)
    · cases hnone

end AlpcResearch.AdvancedServer
