import Nbstftp.Lib.Fields
import Nbstftp.Turn

/-!
# The fields of a request

A request is parsed in four steps, each of which reads a string from the receive buffer
and moves a cursor behind it, with one bound for all of them. The bound keeps a step from
running out of the buffer only as long as a string ends in time, and that it does is due
to the zeros behind the datagram, of which a step uses up one at most: the strings are the
fields of the datagram, and all that is read is in the buffer (`parses_fields`), whatever
was in it before (`receiveInto_eq`).
-/

namespace Nbstftp

/-- The receive buffer of a socket, once it is cleared (`memset`) and a datagram was
    received into it (`recvfrom`). -/
def receiveInto (packet datagram : Bytes) : Bytes :=
  let packet := poke packet 0 (List.replicate pktlen 0)
  poke packet 0 (datagram.take pktlen)

/-- The count of bytes looked at for a string at the start of `s`, of at most `maxlen`
    bytes: without a NUL byte in time, all of them, in `s` or behind it. -/
def scanned (s : Bytes) (maxlen : ℕ) : ℕ :=
  if strnlen s maxlen < min maxlen s.length then strnlen s maxlen + 1 else maxlen

/-- The reads of `parseRequest`: from where, and how many bytes. -/
def parseReads (p : Bytes) (alloclen : ℕ) : List (ℕ × ℕ) :=
  let maxlen := alloclen - 2
  let filename := getNext p 2 maxlen
  let mode := getNext p filename.2 maxlen
  let opt := getNext p mode.2 maxlen
  let read data := (data, scanned (p.drop data) maxlen)
  [read 2, read filename.2, read mode.2] ++
    if strnlen opt.1 maxlen ≠ 0 then [read opt.2] else []

/-- The fields of a datagram: what is between the NUL bytes behind the opcode. -/
def fieldsOf (datagram : Bytes) : List Bytes := (datagram.drop 2).splitOn 0

/-- A request is parsed from a buffer into the given fields, those missing being empty, and
    without reading out of the buffer. -/
structure ParsesFields (p : Bytes) (fields : List Bytes) : Prop where
  filename : (parseRequest p pktlen).filename = fields.getD 0 []
  mode : (parseRequest p pktlen).mode = fields.getD 1 []
  opt : (parseRequest p pktlen).opt = fields.getD 2 []
  optparam : (parseRequest p pktlen).optparam =
    if fields.getD 2 [] ≠ [] then some (fields.getD 3 []) else none
  reads : ∀ r ∈ parseReads p pktlen, r.1 + r.2 ≤ p.length

theorem length_receiveBuffer (datagram : Bytes) : (receiveBuffer datagram).length = pktlen := by
  rw [receiveBuffer, List.length_append, List.length_take, List.length_replicate]
  omega

/-- Nothing is left of what was in the buffer before. -/
theorem receiveInto_eq {packet : Bytes} (h : packet.length = pktlen) (datagram : Bytes) :
    receiveInto packet datagram = receiveBuffer datagram := by
  have hclear : poke packet 0 (List.replicate pktlen 0) = List.replicate pktlen 0 := by
    rw [poke, List.take_zero, Nat.zero_sub, List.replicate_zero, List.nil_append,
      List.nil_append, Nat.zero_add, List.length_replicate, List.drop_eq_nil_of_le (Nat.le_of_eq h),
      List.append_nil]
  rw [receiveInto, hclear, poke, List.take_zero, Nat.zero_sub, List.replicate_zero,
    List.nil_append, List.nil_append, Nat.zero_add, List.drop_replicate, List.length_take,
    receiveBuffer]
  congr 2
  omega

/-- A string that is not too long is a field. -/
theorem strndup_eq {s : Bytes} {maxlen : ℕ} (h : (Lib.nextField 0 s).length ≤ maxlen) :
    strndup s maxlen = Lib.nextField 0 s := by
  rw [strndup, ← List.take_takeWhile]
  exact List.take_of_length_le h

theorem strnlen_eq (s : Bytes) (maxlen : ℕ) : strnlen s maxlen = (strndup s maxlen).length := rfl

/-- The cursor is at the `k`-th field of a datagram, and has not gone further behind the
    datagram than by a byte for each step. -/
structure AtField (datagram : Bytes) (data k : ℕ) : Prop where
  fields : ∀ j, Lib.field 0 ((receiveBuffer datagram).drop data) j =
    Lib.field 0 (datagram.drop 2) (k + j)
  le : data ≤ datagram.length + k

section

variable {datagram : Bytes} {data k maxlen : ℕ}

/-- At first, the cursor is behind the opcode. -/
theorem atField_zero (h : 2 ≤ datagram.length) (hle : datagram.length ≤ maxPacketSize) :
    AtField datagram 2 0 where
  fields j := by
    have htake : datagram.take pktlen = datagram :=
      List.take_of_length_le (Nat.le_trans hle (by decide))
    rw [receiveBuffer, htake, List.drop_append_of_le_length h, Nat.zero_add]
    exact Lib.field_append_replicate _ _ _
  le := h

/-- A step reads the field the cursor is at, and moves on to the next one. -/
theorem AtField.getNext (h : AtField datagram data k)
    (hmax : datagram.length + k < maxlen) (hlen : datagram.length + k < pktlen) :
    (getNext (receiveBuffer datagram) data maxlen).1 = Lib.field 0 (datagram.drop 2) k ∧
      AtField datagram (getNext (receiveBuffer datagram) data maxlen).2 (k + 1) ∧
      data + scanned ((receiveBuffer datagram).drop data) maxlen ≤ pktlen := by
  have hfirst : Lib.nextField 0 ((receiveBuffer datagram).drop data) =
      Lib.field 0 (datagram.drop 2) k := h.fields 0
  -- The zero behind the datagram that ends the field, if no other one does before.
  have hzero : ((receiveBuffer datagram).drop data)[datagram.length + k - data]? = some 0 := by
    have hle := h.le
    rw [List.getElem?_drop, Nat.add_sub_cancel' hle, receiveBuffer, List.getElem?_append_right
      (by rw [List.length_take]; omega), List.getElem?_replicate, if_pos]
    rw [List.length_take]
    omega
  have hend := Lib.length_nextField_le hzero
  have hdup : strndup ((receiveBuffer datagram).drop data) maxlen =
      Lib.nextField 0 ((receiveBuffer datagram).drop data) := strndup_eq (by omega)
  have hdrop : (receiveBuffer datagram).drop
      (data + (Lib.nextField 0 ((receiveBuffer datagram).drop data)).length + 1) =
        Lib.afterField 0 ((receiveBuffer datagram).drop data) := by
    rw [Lib.afterField_eq_drop, List.drop_drop, Nat.add_assoc]
  have hle := h.le
  refine ⟨hdup.trans hfirst, ⟨fun j => ?_, ?_⟩, ?_⟩
  · rw [Nbstftp.getNext, strnlen_eq, hdup, hdrop, Nat.add_right_comm]
    exact h.fields (j + 1)
  · rw [Nbstftp.getNext, strnlen_eq, hdup]
    omega
  · rw [scanned, strnlen_eq, hdup, if_pos]
    · omega
    · rw [List.length_drop, length_receiveBuffer]
      omega

end

/-- A request received into whatever buffer is parsed into its fields. -/
theorem parses_fields {packet datagram : Bytes} (hpacket : packet.length = pktlen)
    (hge : 2 ≤ datagram.length) (hle : datagram.length ≤ maxPacketSize) :
    ParsesFields (receiveInto packet datagram) (fieldsOf datagram) := by
  have hfield : ∀ k, (fieldsOf datagram).getD k [] = Lib.field 0 (datagram.drop 2) k :=
    fun k => (Lib.field_eq_getD _ k).symm
  have hsize : ∀ k < 4, datagram.length + k < pktlen - 2 ∧ datagram.length + k < pktlen := by
    rw [maxPacketSize] at hle
    rw [pktlen]
    omega
  obtain ⟨hfilename, hmode, hread₀⟩ := (atField_zero hge hle).getNext (hsize 0 (by decide)).1
    (hsize 0 (by decide)).2
  obtain ⟨hmode₁, hopt, hread₁⟩ := hmode.getNext (hsize 1 (by decide)).1 (hsize 1 (by decide)).2
  obtain ⟨hopt₁, hparam, hread₂⟩ := hopt.getNext (hsize 2 (by decide)).1 (hsize 2 (by decide)).2
  obtain ⟨hparam₁, -, hread₃⟩ := hparam.getNext (hsize 3 (by decide)).1 (hsize 3 (by decide)).2
  -- Only an option that is not empty has a parameter.
  have hempty : strnlen (getNext (receiveBuffer datagram) (getNext (receiveBuffer datagram)
      (getNext (receiveBuffer datagram) 2 (pktlen - 2)).2 (pktlen - 2)).2 (pktlen - 2)).1
        (pktlen - 2) ≠ 0 ↔ (fieldsOf datagram).getD 2 [] ≠ [] := by
    rw [hfield, ← hopt₁, getNext, strnlen_strndup, Ne, List.length_eq_zero_iff]
  rw [receiveInto_eq hpacket]
  refine ⟨?_, ?_, ?_, ?_, ?_⟩
  · exact hfilename.trans (hfield 0).symm
  · exact hmode₁.trans (hfield 1).symm
  · exact hopt₁.trans (hfield 2).symm
  · rw [parseRequest]
    dsimp only
    simp only [hempty, hparam₁, hfield 3]
  · rw [length_receiveBuffer, parseReads]
    dsimp only
    simp only [List.forall_mem_append, List.forall_mem_cons, hread₀, hread₁, hread₂,
      List.not_mem_nil, false_implies, implies_true, true_and]
    split
    · simpa using hread₃
    · simp

/-- A request without options, into a buffer that is full of other bytes. -/
theorem parses_fields_sample :
    ParsesFields (receiveInto (List.replicate pktlen 7) (Sample.request .rrq []))
      (fieldsOf (Sample.request .rrq [])) :=
  parses_fields List.length_replicate (by decide) (by decide)

end Nbstftp
