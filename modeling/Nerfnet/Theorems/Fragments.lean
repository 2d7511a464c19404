import Mathlib.Data.List.GetD
import Nerfnet.Library.SelfDelimiting
import Nerfnet.Theorems.Transmit

/-! # Fragments and the check of the reassembled packet

`IsValidIpPacket` compares the length of a packet with the one that its first bytes declare, and these
lie in the first fragment: behind it the check notices every lost or surplus byte, and nothing else. -/

namespace Nerfnet

/-! ### The declared length -/

/-- The length that the first bytes of an IP packet declare. -/
def declaredLength (packet : Bytes) : Option Nat :=
  let version := byteAt packet 0 >>> 4
  if version = 4 then
    let ihl := (byteAt packet 0 &&& 0x0F).toNat * 4
    let totalLen := (wordAt packet 2).toNat
    if 20 ≤ ihl ∧ ihl ≤ totalLen then some totalLen else none
  else if version = 6 then some (40 + (wordAt packet 4).toNat)
  else none

theorem isValidIpPacket_iff {packet : Bytes} :
    isValidIpPacket packet = true ↔ declaredLength packet = some packet.length := by
  by_cases hempty : packet = []
  · subst hempty
    decide
  · have hempty' : packet.isEmpty = false := by simpa using hempty
    simp only [isValidIpPacket, declaredLength, hempty', Bool.false_eq_true, if_false]
    split
    · split_ifs <;> simp <;> omega
    · split
      · split_ifs <;> simp <;> omega
      · simp

theorem byteAt_append {head : Bytes} {i : Nat} (hi : i < head.length) (s : Bytes) : byteAt (head ++ s) i = byteAt head i :=
  List.getD_append head s 0 i hi

/-- The declared length is in the first six bytes. -/
theorem selfDelimiting_declaredLength : SelfDelimiting 6 declaredLength where
  stable head s h := by
    have hbyte : ∀ i < 6, byteAt (head ++ s) i = byteAt head i := fun i hi => byteAt_append (by omega) s
    have htotal : wordAt (head ++ s) 2 = wordAt head 2 := by
      rw [wordAt, wordAt, hbyte 2 (by omega), hbyte 3 (by omega)]
    have hpayload : wordAt (head ++ s) 4 = wordAt head 4 := by
      rw [wordAt, wordAt, hbyte 4 (by omega), hbyte 5 (by omega)]
    simp only [declaredLength, hbyte 0 (by omega), htotal, hpayload]
  long packet h := by
    simp only [declaredLength] at h
    split at h
    · split at h
      · rename_i hlen
        have := Option.some.inj h
        omega
      · cases h
    · split at h
      · have := Option.some.inj h
        omega
      · cases h

/-! ### The fragments of a packet -/

/-- The payloads of the next `n` DATA frames, each acknowledged before the next one is built. -/
def payloads : Nat → RadioInterface → List Bytes
  | 0, _ => []
  | n + 1, r =>
    match r.buildNextDataFrameLocked with
    | (_, none) => []
    | (r, some frame) => frame.payload :: payloads n { r with tx := r.tx.commitAckLocked frame.seq }

/-- The fragments of a packet; each of them has a byte, so there are no more of them than bytes. -/
def fragments (packet : Bytes) : List Bytes := payloads packet.length { tx := { readBuffer := [packet] } }

/-- A packet in pieces that all have the size of a payload, up to the last one. -/
structure CutInto (packet : Bytes) (pieces : List Bytes) : Prop where
  joined : pieces.flatten = packet
  sizes : ∀ piece ∈ pieces, 1 ≤ piece.length ∧ piece.length ≤ kMaxPayloadSize
  full : ∀ piece ∈ pieces.dropLast, piece.length = kMaxPayloadSize

theorem payloads_empty {r : RadioInterface} (hidle : r.tx.txInFlight = false) (hempty : r.tx.readBuffer = []) (n : Nat) :
    payloads n r = [] := by
  cases n with
  | zero => rfl
  | succ n => simp [payloads, RadioInterface.buildNextDataFrameLocked, hidle, hempty]

/-- The first of the payloads, and the queue for the others. -/
theorem payloads_succ {r : RadioInterface} {packet : Bytes} (hwf : r.tx.Wf) (hqueue : r.tx.readBuffer = [packet]) (n : Nat) :
    payloads (n + 1) r = packet.take kMaxPayloadSize :: payloads n { r with tx := { r.tx.committed with
      readBuffer := Transfer.dropFragment kMaxPayloadSize [packet] } } := by
  obtain ⟨tx, frame, hbuild, -, -, hoffers⟩ :=
    buildNextDataFrameLocked_spec hwf (hwf.localHasData.mpr (by simp [hqueue]))
  obtain ⟨current, rest, hqueue', hpayload, -⟩ := hoffers.fragment
  obtain ⟨rfl, -⟩ := List.cons.inj (hqueue.symm.trans hqueue')
  have hcommit : tx.commitAckLocked frame.seq = { r.tx.committed with
      readBuffer := Transfer.dropFragment kMaxPayloadSize [packet] } := by
    rw [hoffers.seq, TxState.commitAckLocked_of_inFlight hoffers.wf hoffers.inFlight, TxState.committed, TxState.committed,
      hoffers.readBuffer, hqueue, hoffers.next]
  simp only [payloads, hbuild, hpayload, hcommit]

theorem cutInto_payloads {n : Nat} {r : RadioInterface} {packet : Bytes} (hwf : r.tx.Wf) (hqueue : r.tx.readBuffer = [packet])
    (hne : packet ≠ []) (hn : packet.length ≤ n) : CutInto packet (payloads n r) := by
  induction n generalizing r packet with
  | zero => exact absurd (List.eq_nil_of_length_eq_zero (Nat.le_zero.mp hn)) hne
  | succ n ih =>
    have hpos := List.length_pos_iff.mpr hne
    rw [payloads_succ hwf hqueue]
    by_cases hlast : packet.length ≤ kMaxPayloadSize
    · rw [payloads_empty rfl (by simp [Transfer.dropFragment, hlast]), List.take_of_length_le hlast]
      exact ⟨by simp, by simpa using ⟨hpos, hlast⟩, by simp⟩
    · have hrest : packet.drop kMaxPayloadSize ≠ [] := List.ne_nil_of_length_pos (by rw [List.length_drop]; omega)
      have hfirst : (packet.take kMaxPayloadSize).length = kMaxPayloadSize := by rw [List.length_take]; omega
      have hsize : 0 < kMaxPayloadSize := by decide
      have hcut := ih (r := { r with tx := { r.tx.committed with readBuffer := Transfer.dropFragment kMaxPayloadSize [packet] } })
        ⟨TxState.wf_committed.next, by simp [TxState.committed], fun _ => ⟨rfl, rfl, rfl⟩⟩
        (by simp [Transfer.dropFragment, hlast]) hrest (by rw [List.length_drop]; omega)
      refine ⟨by rw [List.flatten_cons, hcut.joined, List.take_append_drop], fun piece hpiece => ?_, fun piece hpiece => ?_⟩
      · rcases List.mem_cons.mp hpiece with rfl | hpiece
        · rw [hfirst]
          exact ⟨hsize, Nat.le_refl _⟩
        · exact hcut.sizes piece hpiece
      · rw [List.dropLast_cons_of_ne_nil (fun hnil => hrest (by rw [← hcut.joined, hnil, List.flatten_nil]))] at hpiece
        rcases List.mem_cons.mp hpiece with rfl | hpiece
        · exact hfirst
        · exact hcut.full piece hpiece

theorem cutInto_fragments {packet : Bytes} (hne : packet ≠ []) : CutInto packet (fragments packet) :=
  cutInto_payloads (r := { tx := { readBuffer := [packet] } })
    ⟨TxState.wf_init.next, by simp, fun _ => ⟨rfl, rfl, rfl⟩⟩ rfl hne (Nat.le_refl _)

/-- The first fragment holds the bytes that declare the length. -/
theorem CutInto.head_length {packet head : Bytes} {pieces : List Bytes} (h : CutInto packet (head :: pieces))
    (hpacket : 6 ≤ packet.length) : 6 ≤ head.length := by
  cases pieces with
  | nil =>
    have hjoined := h.joined
    simp only [List.flatten_cons, List.flatten_nil, List.append_nil] at hjoined
    rwa [hjoined]
  | cons piece pieces =>
    have hfull := h.full head (by simp [List.dropLast])
    rw [hfull]
    decide

/-- Behind an intact first fragment the check accepts exactly the right length, so it notices a missing
    or surplus fragment, and concatenated packets can be taken apart in one way only. -/
theorem first_fragment_decides :
    (∀ packet, isValidIpPacket packet = true → CutInto packet (fragments packet) ∧
      ∃ head rest, fragments packet = head :: rest ∧
        (∀ s, isValidIpPacket (head ++ s) = true ↔ head.length + s.length = packet.length) ∧
        (∀ kept, kept.Sublist rest → kept ≠ rest → isValidIpPacket (head ++ kept.flatten) = false) ∧
        ∀ s, s ≠ [] → isValidIpPacket (packet ++ s) = false) ∧
    (∀ packet packet', isValidIpPacket packet = true → isValidIpPacket packet' = true → packet <+: packet' →
      packet = packet') ∧
    ∀ packets packets' : List Bytes, (∀ p ∈ packets, isValidIpPacket p = true) → (∀ p ∈ packets', isValidIpPacket p = true) →
      packets.flatten = packets'.flatten → packets = packets' := by
  have hdelimits := selfDelimiting_declaredLength
  refine ⟨fun packet hvalid => ?_, ?_, ?_⟩
  · have hdeclared := isValidIpPacket_iff.mp hvalid
    have hlong := hdelimits.long packet hdeclared
    have hcut := cutInto_fragments (List.ne_nil_of_length_pos (by omega) : packet ≠ [])
    refine ⟨hcut, ?_⟩
    cases hpieces : fragments packet with
    | nil =>
      rw [hpieces] at hcut
      rw [← hcut.joined] at hlong
      simp at hlong
    | cons head rest =>
      rw [hpieces] at hcut
      have hjoined : head ++ rest.flatten = packet := hcut.joined
      have hhead := hcut.head_length hlong
      refine ⟨head, rest, rfl, fun s => ?_, fun kept hsub hne => ?_, fun s hs => ?_⟩
      · rw [isValidIpPacket_iff]
        exact hdelimits.head_append hdeclared ⟨rest.flatten, hjoined⟩ hhead s
      · have hmissing := hdelimits.pieces_missing (by rwa [hjoined]) hhead
          (fun piece hpiece => List.ne_nil_of_length_pos (hcut.sizes piece (List.mem_cons_of_mem _ hpiece)).1) hsub hne
        exact Bool.eq_false_iff.mpr fun hkept => hmissing (isValidIpPacket_iff.mp hkept)
      · exact Bool.eq_false_iff.mpr fun hext => hdelimits.extension hdeclared hs (isValidIpPacket_iff.mp hext)
  · intro packet packet' h h'
    exact hdelimits.prefixFree packet (isValidIpPacket_iff.mp h) packet' (isValidIpPacket_iff.mp h')
  · intro packets packets' h h'
    exact hdelimits.prefixFree.uniquelyDecodable (by decide) packets packets'
      (fun p hp => isValidIpPacket_iff.mp (h p hp)) (fun p hp => isValidIpPacket_iff.mp (h' p hp))

end Nerfnet
