import CastApp.Cast.DnsNames

/-!
# Record data and its record

A record announces how long its data is, and the cursor is moved past that
many bytes.  The data itself is decoded by a second cursor that sees the whole
packet, as it must for the pointers in it.  Whether what it decodes is the
record's own is a matter of the data: a name, a string or an address that goes
on past the record's end is read from whatever follows.

* `Envelope` — the record as its fixed fields bound it.
* `Fits` — the data ends within the record.
* `readNameInto_agree` — a name depends on the bytes it reads.
* `rdata_contained_iff` — records alike are decoded alike exactly if their
  data fits.
-/

namespace CastApp.Cast.Dns

open CastApp.State
open CastApp.Util.Utf8
open CastApp.Cast.Mdns (DnsError)

variable {data p q : List Byte} {pos : Nat}

/-! ## Records alike -/

/-- The record around its data. -/
structure Envelope where
  owner : String
  recordType : UInt16
  cls : UInt16
  ttl : UInt32
  rdata : List Byte
  deriving DecidableEq, Repr

/-- What `read_record` reads ahead of decoding the data, with the data as it
lies there and the offset it starts at. -/
def readEnvelope : Parse (Envelope × Nat) := do
  let owner ← readName
  let recordType ← readU16
  let cls ← readU16
  let ttl ← readU32
  let rdlength ← readU16
  let p ← get
  let rdata ← take rdlength.toNat
  return (⟨owner, recordType, cls, ttl, rdata⟩, p.pos)

inductive FailureKind : Type
  | truncated
  | pointerOutOfBounds
  | pointerCycle
  | pointerDepthExceeded
  | badLabelLength
  | crash
  deriving DecidableEq, Repr

def errorKind : DnsError → FailureKind
  | .truncated _ => .truncated
  | .pointerOutOfBounds _ => .pointerOutOfBounds
  | .pointerCycle => .pointerCycle
  | .pointerDepthExceeded => .pointerDepthExceeded
  | .badLabelLength _ => .badLabelLength

def Failure.kind : Failure → FailureKind
  | .dns error => errorKind error
  | .indexOutOfBounds | .subtractOverflow | .outOfTurns => .crash

/-- What is decoded, or the kind of the failure. -/
def verdict {α : Type} : Outcome α → Except FailureKind α
  | .ok a _ => .ok a
  | .error failure _ => .error failure.kind

/-- The offsets that decoding a name looks at. -/
inductive Reads (data : List Byte) : Nat → List Nat → Nat → Nat → Prop
  | byte {depth pos : Nat} {visited : List Nat} : Reads data depth visited pos pos
  | content {depth pos i : Nat} {visited : List Nat} {len : Byte}
      (hByte : data[pos]? = some len) (hSome : 1 ≤ len.toNat) (hShort : len.toNat ≤ 63)
      (hAfter : pos < i) (hWithin : i ≤ pos + len.toNat) : Reads data depth visited pos i
  | next {depth pos i : Nat} {visited : List Nat} {len : Byte}
      (hByte : data[pos]? = some len) (hSome : 1 ≤ len.toNat) (hShort : len.toNat ≤ 63)
      (hFits : pos + 1 + len.toNat ≤ data.length)
      (hRest : Reads data depth visited (pos + 1 + len.toNat) i) : Reads data depth visited pos i
  | low {depth pos : Nat} {visited : List Nat} {hi : Byte}
      (hByte : data[pos]? = some hi) (hPointer : 192 ≤ hi.toNat)
      (hDepth : depth < maxPointerDepth) : Reads data depth visited pos (pos + 1)
  | target {depth pos i : Nat} {visited : List Nat} {hi lo : Byte}
      (hByte : data[pos]? = some hi) (hPointer : 192 ≤ hi.toNat)
      (hDepth : depth < maxPointerDepth) (hLow : data[pos + 1]? = some lo)
      (hNew : (hi.toNat - 192) * 256 + lo.toNat ∉ visited)
      (hRest : Reads data (depth + 1) (visited ++ [(hi.toNat - 192) * 256 + lo.toNat])
        ((hi.toNat - 192) * 256 + lo.toNat) i) : Reads data depth visited pos i

/-- The offsets that decoding a name looks at by way of a pointer that lies in
place before `stop`. -/
inductive PointedTo (data : List Byte) (stop : Nat) : Nat → Nat → Prop
  | next {pos i : Nat} {len : Byte} (hByte : data[pos]? = some len) (hSome : 1 ≤ len.toNat)
      (hShort : len.toNat ≤ 63) (hInside : pos + 1 + len.toNat ≤ stop)
      (hRest : PointedTo data stop (pos + 1 + len.toNat) i) : PointedTo data stop pos i
  | target {pos i : Nat} {hi lo : Byte} (hByte : data[pos]? = some hi)
      (hPointer : 192 ≤ hi.toNat) (hInside : pos + 2 ≤ stop) (hLow : data[pos + 1]? = some lo)
      (hRest : Reads data 1 [(hi.toNat - 192) * 256 + lo.toNat]
        ((hi.toNat - 192) * 256 + lo.toNat) i) : PointedTo data stop pos i

/-- The offsets a record's data points to, where the data starts at `start`. -/
def pointedTo (e : Envelope) (data : List Byte) (start i : Nat) : Prop :=
  if e.recordType = typePtr then PointedTo data (start + e.rdata.length) start i
  else if e.recordType = typeSrv then PointedTo data (start + e.rdata.length) (start + 6) i
  else False

/-- Whatever other packet has the same record at this offset, and the same
bytes where the record's data points, decodes it alike. -/
def Contained (p : List Byte) (pos : Nat) : Prop :=
  ∀ q e i j p' q', readEnvelope ⟨p, pos⟩ = .ok (e, i) p' → readEnvelope ⟨q, pos⟩ = .ok (e, j) q' →
    (∀ k, pointedTo e p i k → p[k]? = q[k]?) →
      verdict (readRecord ⟨p, pos⟩) = verdict (readRecord ⟨q, pos⟩)

/-! ## Data that fits -/

/-- A name that is settled within the bytes: by its zero byte, by a whole
pointer, or by a byte that no name has. -/
inductive NameFits : List Byte → Prop
  | root (rest : List Byte) : NameFits (0 :: rest)
  | pointer {hi : Byte} (lo : Byte) (rest : List Byte) (hPointer : 192 ≤ hi.toNat) :
      NameFits (hi :: lo :: rest)
  | bad {byte : Byte} (rest : List Byte) (hLow : 64 ≤ byte.toNat) (hHigh : byte.toNat < 192) :
      NameFits (byte :: rest)
  | label {len : Byte} {label rest : List Byte} (hSome : 1 ≤ len.toNat) (hShort : len.toNat ≤ 63)
      (hLabel : label.length = len.toNat) (hRest : NameFits rest) :
      NameFits (len :: (label ++ rest))

/-- Character-strings, and nothing else. -/
inductive StringsFit : List Byte → Prop
  | nil : StringsFit []
  | cons {len : Byte} {string rest : List Byte} (hString : string.length = len.toNat)
      (hRest : StringsFit rest) : StringsFit (len :: (string ++ rest))

/-- The record's data ends within the record. -/
def Fits (recordType : UInt16) (rdata : List Byte) : Prop :=
  if recordType = typePtr then NameFits rdata
  else if recordType = typeSrv then 6 ≤ rdata.length ∧ NameFits (rdata.drop 6)
  else if recordType = typeTxt then StringsFit rdata
  else if recordType = typeA then 4 ≤ rdata.length
  else True

/-! ## What is there -/

theorem drop_cons {byte : Byte} {rest : List Byte} (h : data.drop pos = byte :: rest) :
    data[pos]? = some byte ∧ data.drop (pos + 1) = rest ∧ pos < data.length := by
  have hByte : data[pos]? = some byte := by
    have hHead := congrArg (fun bytes => bytes[0]?) h
    simpa using hHead
  refine ⟨hByte, ?_, (List.getElem?_eq_some_iff.mp hByte).1⟩
  rw [← List.drop_drop, h]
  rfl

theorem getElem?_of_drop (h : data.drop pos = []) : data[pos]? = none :=
  List.getElem?_eq_none_iff.mpr (List.drop_eq_nil_iff.mp h)

theorem drop_append {first rest : List Byte} (h : data.drop pos = first ++ rest) :
    slice data pos first.length = first ∧ data.drop (pos + first.length) = rest := by
  constructor
  · simp [slice, h]
  · rw [← List.drop_drop, h]
    simp

theorem drop_fits {first rest : List Byte} (h : data.drop pos = first ++ rest)
    (hSome : first ≠ []) : pos + first.length ≤ data.length := by
  have hLength := congrArg List.length h
  have hPos := List.length_pos_iff.mpr hSome
  simp only [List.length_drop, List.length_append] at hLength
  omega

/-- Slices are alike where the packets are. -/
theorem slice_congr {len : Nat} (h : ∀ i, pos ≤ i → i < pos + len → p[i]? = q[i]?) :
    slice p pos len = slice q pos len := by
  apply List.ext_getElem?
  intro i
  simp only [slice, List.getElem?_take, List.getElem?_drop]
  by_cases hInside : i < len
  · rw [if_pos hInside, if_pos hInside]
    exact h (pos + i) (by omega) (by omega)
  · rw [if_neg hInside, if_neg hInside]

theorem ne_zero_iff {byte : Byte} : byte ≠ 0 ↔ 1 ≤ byte.toNat := by
  rw [ne_eq, ← UInt8.toNat_inj, Nat.one_le_iff_ne_zero]
  rfl

theorem length_congr {i : Nat} (h : p[i]? = q[i]?) : i < p.length ↔ i < q.length := by
  have hOut : p.length ≤ i ↔ q.length ≤ i := by
    rw [← List.getElem?_eq_none_iff, ← List.getElem?_eq_none_iff, h]
  omega

/-! ## One turn, by its first byte -/

variable {depth : Nat} {visited : List Nat}

theorem nameTurn_none (hByte : data[pos]? = none) :
    nameTurn data pos depth visited = .refused (.truncated data.length) pos := by
  simp only [nameTurn, hByte]

section Pointer

variable {hi : Byte} (hByte : data[pos]? = some hi) (hPointer : 192 ≤ hi.toNat)

include hByte hPointer

/-- One pointer too many. -/
theorem nameTurn_deep (hDepth : ¬ depth < maxPointerDepth) :
    nameTurn data pos depth visited = .refused .pointerDepthExceeded (pos + 1) := by
  have hSome : hi ≠ 0 := ne_zero_iff.mpr (by omega)
  simp only [nameTurn, hByte]
  rw [if_neg hSome, if_pos hPointer, if_pos (by omega)]

variable (hDepth : depth < maxPointerDepth)

include hDepth

theorem nameTurn_at_pointer {lo : Byte} (hLow : data[pos + 1]? = some lo) :
    nameTurn data pos depth visited =
      if (hi.toNat - 192) * 256 + lo.toNat ≥ data.length then
        .refused (.pointerOutOfBounds ((hi.toNat - 192) * 256 + lo.toNat)) (pos + 2)
      else if (hi.toNat - 192) * 256 + lo.toNat ∈ visited then .refused .pointerCycle (pos + 2)
      else .pointer ((hi.toNat - 192) * 256 + lo.toNat) := by
  have hSome : hi ≠ 0 := ne_zero_iff.mpr (by omega)
  simp only [nameTurn, hByte, hLow]
  rw [if_neg hSome, if_pos hPointer, if_neg (by omega)]

/-- A pointer without its second byte. -/
theorem nameTurn_cut (hLow : data[pos + 1]? = none) :
    nameTurn data pos depth visited = .refused (.truncated data.length) (pos + 1) := by
  have hSome : hi ≠ 0 := ne_zero_iff.mpr (by omega)
  simp only [nameTurn, hByte, hLow]
  rw [if_neg hSome, if_pos hPointer, if_neg (by omega)]

end Pointer

theorem nameTurn_bad {byte : Byte} (hByte : data[pos]? = some byte) (hLow : 64 ≤ byte.toNat)
    (hHigh : byte.toNat < 192) :
    nameTurn data pos depth visited = .refused (.badLabelLength byte) (pos + 1) := by
  have hSome : byte ≠ 0 := ne_zero_iff.mpr (by omega)
  simp only [nameTurn, hByte]
  rw [if_neg hSome, if_neg (by omega), if_pos hLow]

/-- A label that the packet ends in. -/
theorem nameTurn_overrun {len : Byte} (hByte : data[pos]? = some len) (hSome : 1 ≤ len.toNat)
    (hShort : len.toNat ≤ 63) (hOver : data.length < pos + 1 + len.toNat) :
    nameTurn data pos depth visited = .refused (.truncated data.length) (pos + 1) := by
  have hLen : len ≠ 0 := ne_zero_iff.mpr hSome
  simp only [nameTurn, hByte]
  rw [if_neg hLen, if_neg (by omega), if_neg (by omega), if_neg (by omega)]

/-! ## A name depends on the bytes it reads -/

/-- Turns that come upon the same, but for the length of the packet. -/
def NameTurn.Alike : NameTurn → NameTurn → Prop
  | .root, .root => True
  | .label bytes, .label others => bytes = others
  | .pointer target, .pointer other => target = other
  | .refused error _, .refused other _ => errorKind error = errorKind other
  | _, _ => False

namespace NameTurn.Alike

variable {turn : NameTurn}

theorem eq_root (h : NameTurn.root.Alike turn) : turn = .root := by
  cases turn with
  | root => rfl
  | label | pointer | refused => exact h.elim

theorem eq_label {bytes : List Byte} (h : (NameTurn.label bytes).Alike turn) :
    turn = .label bytes := by
  cases turn with
  | label others => exact congrArg NameTurn.label (Eq.symm h)
  | root | pointer | refused => exact h.elim

theorem eq_pointer {target : Nat} (h : (NameTurn.pointer target).Alike turn) :
    turn = .pointer target := by
  cases turn with
  | pointer other => exact congrArg NameTurn.pointer (Eq.symm h)
  | root | label | refused => exact h.elim

theorem eq_refused {error : DnsError} {stop : Nat}
    (h : (NameTurn.refused error stop).Alike turn) :
    ∃ other stop', turn = .refused other stop' ∧ errorKind error = errorKind other := by
  cases turn with
  | refused other stop' => exact ⟨other, stop', rfl, h⟩
  | root | label | pointer => exact h.elim

end NameTurn.Alike

section Alike

variable (hReads : ∀ i, Reads p depth visited pos i → p[i]? = q[i]?)

include hReads

theorem nameTurn_alike_pointer {hi : Byte} (hByte : p[pos]? = some hi)
    (hPointer : 192 ≤ hi.toNat) (hVisited : ∀ i ∈ visited, p[i]? = q[i]?) :
    (nameTurn p pos depth visited).Alike (nameTurn q pos depth visited) := by
  have hByte' : q[pos]? = some hi := (hReads pos .byte).symm.trans hByte
  by_cases hDepth : depth < maxPointerDepth
  · have hLower := hReads (pos + 1) (.low hByte hPointer hDepth)
    cases hLow : p[pos + 1]? with
    | none =>
        rw [nameTurn_cut hByte hPointer hDepth hLow,
          nameTurn_cut hByte' hPointer hDepth (hLower.symm.trans hLow)]
        rfl
    | some lo =>
        have hTarget : p[(hi.toNat - 192) * 256 + lo.toNat]? =
            q[(hi.toNat - 192) * 256 + lo.toNat]? := by
          by_cases hSeen : (hi.toNat - 192) * 256 + lo.toNat ∈ visited
          · exact hVisited _ hSeen
          · exact hReads _ (.target hByte hPointer hDepth hLow hSeen .byte)
        have hInside := length_congr hTarget
        rw [nameTurn_at_pointer hByte hPointer hDepth hLow,
          nameTurn_at_pointer hByte' hPointer hDepth (hLower.symm.trans hLow)]
        by_cases hOut : (hi.toNat - 192) * 256 + lo.toNat ≥ p.length
        · rw [if_pos hOut, if_pos (by omega)]
          rfl
        · have hOut' : ¬ (hi.toNat - 192) * 256 + lo.toNat ≥ q.length := by omega
          rw [if_neg hOut, if_neg hOut']
          by_cases hSeen : (hi.toNat - 192) * 256 + lo.toNat ∈ visited
          · rw [if_pos hSeen]
            rfl
          · rw [if_neg hSeen]
            rfl
  · rw [nameTurn_deep hByte hPointer hDepth, nameTurn_deep hByte' hPointer hDepth]
    rfl

theorem nameTurn_alike_label {len : Byte} (hByte : p[pos]? = some len) (hSome : 1 ≤ len.toNat)
    (hShort : len.toNat ≤ 63) :
    (nameTurn p pos depth visited).Alike (nameTurn q pos depth visited) := by
  have hByte' : q[pos]? = some len := (hReads pos .byte).symm.trans hByte
  have hContent : ∀ i, pos < i → i ≤ pos + len.toNat → p[i]? = q[i]? :=
    fun i hAfter hWithin => hReads i (.content hByte hSome hShort hAfter hWithin)
  have hLast := length_congr (hContent (pos + len.toNat) (by omega) (Nat.le_refl _))
  by_cases hFits : pos + 1 + len.toNat ≤ p.length
  · rw [nameTurn_label.mpr ⟨len, hByte, hSome, hShort, hFits, rfl⟩,
      nameTurn_label.mpr ⟨len, hByte', hSome, hShort, by omega, rfl⟩]
    exact slice_congr fun i hFrom hTo => hContent i (by omega) (by omega)
  · rw [nameTurn_overrun hByte hSome hShort (by omega),
      nameTurn_overrun hByte' hSome hShort (by omega)]
    rfl

theorem nameTurn_alike (hVisited : ∀ i ∈ visited, p[i]? = q[i]?) :
    (nameTurn p pos depth visited).Alike (nameTurn q pos depth visited) := by
  have hSame := hReads pos .byte
  cases hByte : p[pos]? with
  | none =>
      rw [nameTurn_none hByte, nameTurn_none (hSame.symm.trans hByte)]
      rfl
  | some byte =>
      have hByte' : q[pos]? = some byte := hSame.symm.trans hByte
      by_cases hRoot : byte = 0
      · subst hRoot
        rw [nameTurn_root.mpr hByte, nameTurn_root.mpr hByte']
        trivial
      · by_cases hPointer : 192 ≤ byte.toNat
        · exact nameTurn_alike_pointer hReads hByte hPointer hVisited
        · by_cases hBad : 64 ≤ byte.toNat
          · rw [nameTurn_bad hByte hBad (by omega), nameTurn_bad hByte' hBad (by omega)]
            rfl
          · exact nameTurn_alike_label hReads hByte (ne_zero_iff.mp hRoot) (by omega)

end Alike

@[simp] theorem verdict_ok {α : Type} (a : α) (r : Parser) :
    verdict (.ok a r : Outcome α) = .ok a := rfl

@[simp] theorem verdict_error {α : Type} (failure : Failure) (r : Parser) :
    verdict (.error failure r : Outcome α) = .error failure.kind := rfl

theorem verdict_readAt {α : Type} (offset : Nat) (read : Parse α) (r : Parser) :
    verdict (readAt offset read r) = verdict (read ⟨r.data, offset⟩) := by
  unfold readAt
  cases read { r with pos := offset } with
  | ok a s => rfl
  | error failure s => rfl

/-- **Two packets alike wherever the name looks give the same name**, or the
same kind of failure. -/
theorem readNameInto_agree (turns more : Nat) {labels : List String}
    (hReads : ∀ i, Reads p depth visited pos i → p[i]? = q[i]?)
    (hVisited : ∀ i ∈ visited, p[i]? = q[i]?) (hTurns : EnoughTurns p turns depth pos)
    (hMore : EnoughTurns q more depth pos) :
    verdict (readNameInto turns labels depth visited ⟨p, pos⟩) =
      verdict (readNameInto more labels depth visited ⟨q, pos⟩) := by
  induction turns generalizing more labels depth visited pos with
  | zero =>
      unfold EnoughTurns at hTurns
      omega
  | succ turns ih =>
      obtain ⟨more, rfl⟩ : ∃ n, more = n + 1 := ⟨more - 1, by
        unfold EnoughTurns at hMore
        omega⟩
      have hAlike := nameTurn_alike hReads hVisited
      rw [readNameInto_turn, readNameInto_turn]
      cases hTurn : nameTurn p pos depth visited with
      | root =>
          rw [hTurn] at hAlike
          rw [hAlike.eq_root]
          rfl
      | label bytes =>
          rw [hTurn] at hAlike
          obtain ⟨len, hByte, hSome, hShort, hFits, rfl⟩ := nameTurn_label.mp hTurn
          obtain ⟨len', _, _, _, hFits', hSame⟩ := nameTurn_label.mp hAlike.eq_label
          have hLen : len.toNat = len'.toNat := by
            rw [← length_slice hFits, hSame, length_slice hFits']
          rw [hAlike.eq_label]
          simp only [length_slice hFits]
          exact ih more (fun i hRest => hReads i (.next hByte hSome hShort hFits hRest)) hVisited
            (hTurns.label (by omega) hFits) (hMore.label (by omega) (by omega))
      | pointer target =>
          rw [hTurn] at hAlike
          obtain ⟨hi, lo, hByte, hPointer, hDeeper, hLow, rfl, hTarget, hNew⟩ :=
            nameTurn_pointer.mp hTurn
          rw [hAlike.eq_pointer]
          simp only [verdict_readAt]
          refine ih more
            (fun i hRest => hReads i (.target hByte hPointer hDeeper hLow hNew hRest)) ?_
            (hTurns.pointer _ hDeeper) (hMore.pointer _ hDeeper)
          intro i hMem
          rcases List.mem_append.mp hMem with hMem | hMem
          · exact hVisited i hMem
          · rw [List.mem_singleton.mp hMem]
            exact hReads _ (.target hByte hPointer hDeeper hLow hNew .byte)
      | refused error stop =>
          rw [hTurn] at hAlike
          obtain ⟨other, stop', hOther, hKind⟩ := hAlike.eq_refused
          rw [hOther]
          simp [Failure.kind, hKind]

/-! ## Names in place -/

theorem nameTurn_in_place (depth : Nat) (visited : List Nat) {len : Byte}
    {label rest : List Byte} (hSome : 1 ≤ len.toNat) (hShort : len.toNat ≤ 63)
    (hLabel : label.length = len.toNat) (h : data.drop pos = len :: (label ++ rest)) :
    nameTurn data pos depth visited = .label label ∧
      data.drop (pos + 1 + label.length) = rest ∧ pos + 1 + label.length ≤ data.length := by
  obtain ⟨hByte, hAfter, _⟩ := drop_cons h
  obtain ⟨hSlice, hRest⟩ := drop_append hAfter
  have hFits : pos + 1 + label.length ≤ data.length := by
    refine drop_fits hAfter fun hNone => ?_
    simp [hNone] at hLabel
    omega
  refine ⟨nameTurn_label.mpr ⟨len, hByte, hSome, hShort, by omega, ?_⟩, hRest, hFits⟩
  rw [← hLabel, hSlice]

theorem exists_turns {turns : Nat} (h : EnoughTurns data turns depth pos) :
    ∃ more, turns = more + 1 := by
  unfold EnoughTurns at h
  exact ⟨turns - 1, by omega⟩

/-- A name that is settled in place is decoded from those bytes, wherever they
lie, and from what they point to. -/
theorem nameFits_agree {bytes : List Byte} (hFits : NameFits bytes) {a b : Nat}
    {pTail qTail : List Byte} (turns more : Nat) (labels : List String)
    (hP : p.drop a = bytes ++ pTail) (hQ : q.drop b = bytes ++ qTail)
    (hPointed : ∀ i, PointedTo p (a + bytes.length) a i → p[i]? = q[i]?)
    (hTurns : EnoughTurns p turns 0 a) (hMore : EnoughTurns q more 0 b) :
    verdict (readNameInto turns labels 0 [] ⟨p, a⟩) =
      verdict (readNameInto more labels 0 [] ⟨q, b⟩) := by
  obtain ⟨turns, rfl⟩ := exists_turns hTurns
  obtain ⟨more, rfl⟩ := exists_turns hMore
  induction hFits generalizing a b turns more labels with
  | root rest =>
      rw [readNameInto_turn, readNameInto_turn, nameTurn_root.mpr (drop_cons hP).1,
        nameTurn_root.mpr (drop_cons hQ).1]
      rfl
  | bad rest hLow hHigh =>
      rw [readNameInto_turn, readNameInto_turn, nameTurn_bad (drop_cons hP).1 hLow hHigh,
        nameTurn_bad (drop_cons hQ).1 hLow hHigh]
      rfl
  | @pointer hi lo rest hPointer =>
      obtain ⟨hByte, hAfter, _⟩ := drop_cons hP
      obtain ⟨hByte', hAfter', _⟩ := drop_cons hQ
      have hLow := (drop_cons hAfter).1
      have hLow' := (drop_cons hAfter').1
      have hReads : ∀ i, Reads p 1 [(hi.toNat - 192) * 256 + lo.toNat]
          ((hi.toNat - 192) * 256 + lo.toNat) i → p[i]? = q[i]? := fun i hRest =>
        hPointed i (.target hByte hPointer (by simp only [List.length_cons]; omega) hLow hRest)
      have hTarget := length_congr (hReads _ .byte)
      have hDepth : 0 < maxPointerDepth := by decide
      rw [readNameInto_turn, readNameInto_turn,
        nameTurn_at_pointer hByte hPointer hDepth hLow,
        nameTurn_at_pointer hByte' hPointer hDepth hLow']
      by_cases hOut : (hi.toNat - 192) * 256 + lo.toNat ≥ p.length
      · rw [if_pos hOut, if_pos (by omega)]
        rfl
      · rw [if_neg hOut, if_neg List.not_mem_nil, if_neg (by omega), if_neg List.not_mem_nil]
        simp only [verdict_readAt]
        refine readNameInto_agree turns more hReads (fun i hMem => ?_)
          (hTurns.pointer _ hDepth) (hMore.pointer _ hDepth)
        rw [List.mem_singleton.mp hMem]
        exact hReads _ .byte
  | @label len label rest hSome hShort hLabel hRest ih =>
      rw [List.cons_append, List.append_assoc] at hP hQ
      obtain ⟨hTurn, hNext, hLength⟩ :=
        nameTurn_in_place 0 [] hSome hShort hLabel hP
      obtain ⟨hTurn', hNext', hLength'⟩ :=
        nameTurn_in_place 0 [] hSome hShort hLabel hQ
      have hByte := (drop_cons hP).1
      have hTurns : EnoughTurns p turns 0 (a + 1 + label.length) :=
        hTurns.label (by omega) hLength
      have hMore : EnoughTurns q more 0 (b + 1 + label.length) :=
        hMore.label (by omega) hLength'
      obtain ⟨turns, rfl⟩ := exists_turns hTurns
      obtain ⟨more, rfl⟩ := exists_turns hMore
      rw [readNameInto_turn, readNameInto_turn, hTurn, hTurn']
      refine ih _ hNext hNext' (fun i hPoints => ?_) turns hTurns more hMore
      refine hPointed i (.next hByte hSome hShort ?_ ?_)
      · simp only [List.length_cons, List.length_append]
        omega
      · rw [← hLabel]
        simpa [Nat.add_assoc, Nat.add_comm, Nat.add_left_comm] using hPoints

/-- A label that does not fit is cut short, or what is behind it does not fit. -/
theorem not_nameFits_label {len : Byte} {rest : List Byte} (hFits : ¬ NameFits (len :: rest))
    (hSome : 1 ≤ len.toNat) (hShort : len.toNat ≤ 63) :
    rest.length < len.toNat ∨ ∃ label behind, rest = label ++ behind ∧
      label.length = len.toNat ∧ ¬ NameFits behind := by
  by_cases hLabel : len.toNat ≤ rest.length
  · have hLength : (rest.take len.toNat).length = len.toNat := by
      rw [List.length_take]
      omega
    refine .inr ⟨rest.take len.toNat, rest.drop len.toNat,
      (List.take_append_drop _ _).symm, hLength, ?_⟩
    intro hBehind
    apply hFits
    rw [← List.take_append_drop len.toNat rest]
    exact .label hSome hShort hLength hBehind
  · exact .inl (by omega)

/-- A name that is not settled by the end of the packet is cut short. -/
theorem nameTruncated {bytes : List Byte} (hFits : ¬ NameFits bytes) (size : Nat)
    (hSize : bytes.length ≤ size) {a : Nat} (turns : Nat) (labels : List String)
    (h : p.drop a = bytes) (hTurns : EnoughTurns p turns 0 a) :
    verdict (readNameInto turns labels 0 [] ⟨p, a⟩) = .error .truncated := by
  obtain ⟨turns, rfl⟩ := exists_turns hTurns
  induction size generalizing bytes a turns labels with
  | zero =>
      have hNone : bytes = [] := List.length_eq_zero_iff.mp (by omega)
      rw [readNameInto_turn, nameTurn_none (getElem?_of_drop (h.trans hNone))]
      rfl
  | succ size ih =>
      cases bytes with
      | nil =>
          rw [readNameInto_turn, nameTurn_none (getElem?_of_drop h)]
          rfl
      | cons byte rest =>
          obtain ⟨hByte, hAfter, hInside⟩ := drop_cons h
          have hSome : 1 ≤ byte.toNat :=
            ne_zero_iff.mp fun hZero => hFits (hZero ▸ .root rest)
          by_cases hPointer : 192 ≤ byte.toNat
          · -- The pointer's second byte is not there.
            cases rest with
            | cons lo rest => exact absurd (.pointer lo rest hPointer) hFits
            | nil =>
                rw [readNameInto_turn,
                  nameTurn_cut hByte hPointer (by decide) (getElem?_of_drop hAfter)]
                rfl
          · by_cases hBad : 64 ≤ byte.toNat
            · exact absurd (.bad rest hBad (by omega)) hFits
            · rcases not_nameFits_label hFits hSome (by omega) with
                hShort | ⟨label, behind, rfl, hLabel, hBehind⟩
              · have hLength := congrArg List.length hAfter
                rw [List.length_drop] at hLength
                rw [readNameInto_turn, nameTurn_overrun hByte hSome (by omega) (by omega)]
                rfl
              · obtain ⟨hTurn, hNext, hFitsHere⟩ :=
                  nameTurn_in_place 0 [] hSome (by omega) hLabel h
                have hTurns : EnoughTurns p turns 0 (a + 1 + label.length) :=
                  hTurns.label (by omega) hFitsHere
                obtain ⟨turns, rfl⟩ := exists_turns hTurns
                rw [readNameInto_turn, hTurn]
                refine ih hBehind ?_ _ hNext turns hTurns
                simp only [List.length_cons, List.length_append] at hSize
                omega

/-- What a name that is cut short is missing. -/
theorem nameTurn_truncated {error : DnsError} {stop : Nat}
    (hTurn : nameTurn data pos depth visited = .refused error stop)
    (hKind : errorKind error = .truncated) :
    data[pos]? = none ∨ ∃ byte, data[pos]? = some byte ∧ byte ≠ 0 ∧
      data.length ≤ pos + 1 + byte.toNat % 64 := by
  unfold nameTurn at hTurn
  cases hByte : data[pos]? with
  | none => exact .inl rfl
  | some byte =>
      right
      simp only [hByte] at hTurn
      refine ⟨byte, rfl, ?_⟩
      cases hLow : data[pos + 1]? with
      | none =>
          have hEnd := List.getElem?_eq_none_iff.mp hLow
          grind [errorKind]
      | some low => grind [errorKind]

/-- A packet that ends in zeros, as many as a label has bytes and one more. -/
def Padded (data : List Byte) : Prop :=
  ∀ i, data.length ≤ i + 64 → i < data.length → data[i]? = some 0

/-- No name runs into the end of such a packet. -/
theorem padded_name (hPadded : Padded data) (hInside : pos < data.length) (turns : Nat)
    (labels : List String) (hTurns : EnoughTurns data turns depth pos) :
    verdict (readNameInto turns labels depth visited ⟨data, pos⟩) ≠ .error .truncated := by
  induction turns generalizing labels depth visited pos with
  | zero =>
      unfold EnoughTurns at hTurns
      omega
  | succ turns ih =>
      obtain ⟨byte, hByte⟩ : ∃ byte, data[pos]? = some byte :=
        ⟨_, List.getElem?_eq_getElem hInside⟩
      have hRoom : byte = 0 ∨ pos + 64 < data.length := by
        by_cases hLate : data.length ≤ pos + 64
        · have hZero := hPadded pos hLate hInside
          rw [hByte] at hZero
          exact .inl (Option.some.inj hZero)
        · exact .inr (by omega)
      rw [readNameInto_turn]
      cases hTurn : nameTurn data pos depth visited with
      | root => simp
      | label bytes =>
          obtain ⟨len, hLen, hSome, hShort, hFits, rfl⟩ := nameTurn_label.mp hTurn
          rw [hByte] at hLen
          cases hLen
          have hAhead : pos + 64 < data.length := hRoom.resolve_left fun hZero => by
            rw [hZero] at hSome
            exact absurd hSome (by decide)
          simp only [length_slice hFits]
          exact ih (by omega) _ (hTurns.label (by omega) hFits)
      | pointer target =>
          obtain ⟨hi, lo, _, _, hDeeper, _, rfl, hTarget, _⟩ := nameTurn_pointer.mp hTurn
          simp only [verdict_readAt]
          exact ih hTarget labels (hTurns.pointer _ hDeeper)
      | refused error stop =>
          intro hCut
          have hKind : errorKind error = .truncated := Except.error.inj hCut
          rcases nameTurn_truncated hTurn hKind with hNone | ⟨found, hFound, hRoot, hEnd⟩
          · rw [hByte] at hNone
            cases hNone
          · rw [hByte] at hFound
            cases hFound
            have hAhead := hRoom.resolve_left hRoot
            omega

/-! ## The record around its data -/

def be16 (hi lo : Byte) : UInt16 := hi.toUInt16 <<< 8 ||| lo.toUInt16

def be32 (a b c d : Byte) : UInt32 :=
  a.toUInt32 <<< 24 ||| b.toUInt32 <<< 16 ||| c.toUInt32 <<< 8 ||| d.toUInt32

theorem readU8_drop {byte : Byte} {rest : List Byte} (h : data.drop pos = byte :: rest) :
    readU8 ⟨data, pos⟩ = .ok byte ⟨data, pos + 1⟩ := readU8_some (drop_cons h).1

theorem readU8_ok {byte : Byte} {r : Parser} (h : readU8 ⟨data, pos⟩ = .ok byte r) :
    data.drop pos = byte :: data.drop (pos + 1) ∧ r = ⟨data, pos + 1⟩ := by
  cases hByte : data[pos]? with
  | none =>
      rw [readU8_none hByte] at h
      cases h
  | some found =>
      rw [readU8_some hByte] at h
      cases h
      obtain ⟨hInside, rfl⟩ := List.getElem?_eq_some_iff.mp hByte
      exact ⟨List.drop_eq_getElem_cons hInside, rfl⟩

theorem readU16_drop {hi lo : Byte} {rest : List Byte} (h : data.drop pos = hi :: lo :: rest) :
    readU16 ⟨data, pos⟩ = .ok (be16 hi lo) ⟨data, pos + 2⟩ := by
  have hNext := (drop_cons h).2.1
  rw [readU16, bind_apply, readU8_drop h]
  simp only
  rw [bind_apply, readU8_drop hNext]
  rfl

theorem readU16_ok {value : UInt16} {r : Parser} (h : readU16 ⟨data, pos⟩ = .ok value r) :
    ∃ hi lo, data.drop pos = hi :: lo :: data.drop (pos + 2) ∧ value = be16 hi lo ∧
      r = ⟨data, pos + 2⟩ := by
  obtain ⟨hi, r, hHi, h⟩ := bind_ok.mp h
  obtain ⟨hDrop, rfl⟩ := readU8_ok hHi
  obtain ⟨lo, r, hLo, h⟩ := bind_ok.mp h
  obtain ⟨hNext, rfl⟩ := readU8_ok hLo
  cases h
  exact ⟨hi, lo, by rw [hDrop, hNext], rfl, rfl⟩

theorem readU32_drop {a b c d : Byte} {rest : List Byte}
    (h : data.drop pos = a :: b :: c :: d :: rest) :
    readU32 ⟨data, pos⟩ = .ok (be32 a b c d) ⟨data, pos + 4⟩ := by
  have hB := (drop_cons h).2.1
  have hC := (drop_cons hB).2.1
  have hD := (drop_cons hC).2.1
  rw [readU32, bind_apply, readU8_drop h]
  simp only
  rw [bind_apply, readU8_drop hB]
  simp only
  rw [bind_apply, readU8_drop hC]
  simp only
  rw [bind_apply, readU8_drop hD]
  rfl

theorem readU32_ok {value : UInt32} {r : Parser} (h : readU32 ⟨data, pos⟩ = .ok value r) :
    ∃ a b c d, data.drop pos = a :: b :: c :: d :: data.drop (pos + 4) ∧ value = be32 a b c d ∧
      r = ⟨data, pos + 4⟩ := by
  obtain ⟨a, r, hRead, h⟩ := bind_ok.mp h
  obtain ⟨hA, rfl⟩ := readU8_ok hRead
  obtain ⟨b, r, hRead, h⟩ := bind_ok.mp h
  obtain ⟨hB, rfl⟩ := readU8_ok hRead
  obtain ⟨c, r, hRead, h⟩ := bind_ok.mp h
  obtain ⟨hC, rfl⟩ := readU8_ok hRead
  obtain ⟨d, r, hRead, h⟩ := bind_ok.mp h
  obtain ⟨hD, rfl⟩ := readU8_ok hRead
  cases h
  exact ⟨a, b, c, d, by rw [hA, hB, hC, hD], rfl, rfl⟩

theorem take_ok {len : Nat} {bytes : List Byte} {r : Parser}
    (h : take len ⟨data, pos⟩ = .ok bytes r) :
    bytes.length = len ∧ data.drop pos = bytes ++ data.drop (pos + len) ∧ r = ⟨data, pos + len⟩ := by
  by_cases hFits : pos + len ≤ data.length
  · rw [take_fits hFits] at h
    cases h
    refine ⟨length_slice hFits, ?_, rfl⟩
    rw [slice, ← List.drop_drop, List.take_append_drop]
  · unfold take at h
    simp only at h
    by_cases hPos : data.length < pos
    · rw [if_pos hPos] at h
      cases h
    · rw [if_neg hPos, if_pos (by omega)] at h
      cases h

theorem take_drop {bytes rest : List Byte} (h : data.drop pos = bytes ++ rest)
    (hPos : pos ≤ data.length) :
    take bytes.length ⟨data, pos⟩ = .ok bytes ⟨data, pos + bytes.length⟩ := by
  have hLength := congrArg List.length h
  simp only [List.length_drop, List.length_append] at hLength
  rw [take_fits (by omega), (drop_append h).1]

/-- A record, byte by byte. -/
theorem readEnvelope_ok {e : Envelope} {i : Nat} {r : Parser}
    (h : readEnvelope ⟨data, pos⟩ = .ok (e, i) r) :
    ∃ a t u c d k l m n x y, readName ⟨data, pos⟩ = .ok e.owner ⟨data, a⟩ ∧
      data.drop a = t :: u :: c :: d :: k :: l :: m :: n :: x :: y :: data.drop (a + 10) ∧
      i = a + 10 ∧ data.drop i = e.rdata ++ data.drop (i + e.rdata.length) ∧
      e.recordType = be16 t u ∧ e.cls = be16 c d ∧ e.ttl = be32 k l m n ∧
      e.rdata.length = (be16 x y).toNat := by
  obtain ⟨owner, ⟨data', a⟩, hOwner, hFixed⟩ := bind_ok.mp h
  obtain rfl : data' = data := (readName_ok_iff.mp hOwner).1
  obtain ⟨recordType, r, hRead, h⟩ := bind_ok.mp hFixed
  obtain ⟨t, u, hType, rfl, rfl⟩ := readU16_ok hRead
  obtain ⟨cls, r, hRead, h⟩ := bind_ok.mp h
  obtain ⟨c, d, hClass, rfl, rfl⟩ := readU16_ok hRead
  obtain ⟨ttl, r, hRead, h⟩ := bind_ok.mp h
  obtain ⟨k, l, m, n, hTtl, rfl, rfl⟩ := readU32_ok hRead
  obtain ⟨rdlength, r, hRead, h⟩ := bind_ok.mp h
  obtain ⟨x, y, hLength, rfl, rfl⟩ := readU16_ok hRead
  obtain ⟨_, _, hGet, h⟩ := bind_ok.mp h
  cases hGet
  obtain ⟨rdata, r, hRead, h⟩ := bind_ok.mp h
  obtain ⟨hRdata, hDrop, rfl⟩ := take_ok hRead
  cases h
  refine ⟨a, t, u, c, d, k, l, m, n, x, y, hOwner, ?_, rfl, ?_, rfl, rfl, rfl, hRdata⟩
  · rw [hType, hClass, hTtl, hLength]
  · rw [hRdata]
    exact hDrop

theorem readEnvelope_of {owner : String} {a : Nat} {t u c d k l m n x y : Byte}
    {rdata rest : List Byte} (hOwner : readName ⟨data, pos⟩ = .ok owner ⟨data, a⟩)
    (h : data.drop a = t :: u :: c :: d :: k :: l :: m :: n :: x :: y :: (rdata ++ rest))
    (hLength : rdata.length = (be16 x y).toNat) :
    readEnvelope ⟨data, pos⟩ =
      .ok (⟨owner, be16 t u, be16 c d, be32 k l m n, rdata⟩, a + 10)
        ⟨data, a + 10 + rdata.length⟩ := by
  have hType := (drop_cons (drop_cons h).2.1).2.1
  have hClass := (drop_cons (drop_cons hType).2.1).2.1
  have hTtl := (drop_cons (drop_cons (drop_cons (drop_cons hClass).2.1).2.1).2.1).2.1
  have hPos := (drop_cons (drop_cons hTtl).2.1).2.2
  have hStart := (drop_cons (drop_cons hTtl).2.1).2.1
  have hTake := take_drop hStart hPos
  rw [hLength] at hTake
  rw [readEnvelope, bind_apply, hOwner]
  simp only
  rw [bind_apply, readU16_drop h]
  simp only
  rw [bind_apply, readU16_drop hType]
  simp only
  rw [bind_apply, readU32_drop hClass]
  simp only
  rw [bind_apply, readU16_drop hTtl]
  simp only
  rw [bind_apply]
  show (take (be16 x y).toNat >>= _ : Parse (Envelope × Nat)) ⟨data, a + 10⟩ = _
  rw [bind_apply, hTake, hLength]
  rfl

/-- A record is its data, decoded from where it starts. -/
theorem readRecord_of {e : Envelope} {i : Nat} {r : Parser}
    (h : readEnvelope ⟨data, pos⟩ = .ok (e, i) r) :
    verdict (readRecord ⟨data, pos⟩) =
      (verdict (readData e.recordType e.rdata.length ⟨data, i⟩)).map
        fun rdata => ⟨e.owner, e.recordType, e.ttl, rdata⟩ := by
  obtain ⟨owner, ⟨data', a⟩, hOwner, hFixed⟩ := bind_ok.mp h
  obtain rfl : data' = data := (readName_ok_iff.mp hOwner).1
  obtain ⟨recordType, r, hType, h⟩ := bind_ok.mp hFixed
  obtain ⟨t, u, _, rfl, rfl⟩ := readU16_ok hType
  obtain ⟨cls, r, hClass, h⟩ := bind_ok.mp h
  obtain ⟨c, d, _, rfl, rfl⟩ := readU16_ok hClass
  obtain ⟨ttl, r, hTtl, h⟩ := bind_ok.mp h
  obtain ⟨k, l, m, n, _, rfl, rfl⟩ := readU32_ok hTtl
  obtain ⟨rdlength, r, hLength, h⟩ := bind_ok.mp h
  obtain ⟨x, y, _, rfl, rfl⟩ := readU16_ok hLength
  obtain ⟨_, _, hGet, h⟩ := bind_ok.mp h
  cases hGet
  obtain ⟨rdata, r, hTake, h⟩ := bind_ok.mp h
  obtain ⟨hRdata, _, rfl⟩ := take_ok hTake
  cases h
  rw [readRecord, bind_apply, hOwner]
  simp only
  rw [bind_apply, hType]
  simp only
  rw [bind_apply, hClass]
  simp only
  rw [bind_apply, hTtl]
  simp only
  rw [bind_apply, hLength]
  simp only
  rw [bind_apply]
  show verdict ((take (be16 x y).toNat >>= _ : Parse DnsRecord) ⟨data', a + 10⟩) = _
  rw [bind_apply, hTake]
  simp only
  rw [bind_apply, hRdata]
  unfold readAt
  cases readData (be16 t u) (be16 x y).toNat ⟨data', a + 10⟩ with
  | ok found r => rfl
  | error failure r => rfl

/-! ## Data that fits is its record's own -/

theorem verdict_map {α β : Type} (x : Parse α) (f : α → β) (r : Parser) :
    verdict ((x >>= fun a => pure (f a)) r) = (verdict (x r)).map f := by
  rw [bind_apply]
  cases x r with
  | ok a s => rfl
  | error failure s => rfl

theorem verdict_readName :
    verdict (readName ⟨data, pos⟩) =
      (verdict (readNameInto (nameTurns data) [] 0 [] ⟨data, pos⟩)).map (".".intercalate ·) :=
  verdict_map _ _ _

/-- The fixed part of an SRV record, and the name behind it. -/
theorem readSrv_drop {a b c d e f : Byte} {rest : List Byte}
    (h : data.drop pos = a :: b :: c :: d :: e :: f :: rest) :
    verdict (readSrv ⟨data, pos⟩) =
      (verdict (readName ⟨data, pos + 6⟩)).map (.srv (be16 a b) (be16 c d) (be16 e f)) := by
  have hWeight := (drop_cons (drop_cons h).2.1).2.1
  have hPort := (drop_cons (drop_cons hWeight).2.1).2.1
  rw [readSrv, bind_apply, readU16_drop h]
  simp only
  rw [bind_apply, readU16_drop hWeight]
  simp only
  rw [bind_apply, readU16_drop hPort]
  exact verdict_map _ _ _

theorem readA_drop {bytes rest : List Byte} (h : data.drop pos = bytes ++ rest)
    (hLength : bytes.length = 4) :
    verdict (readA ⟨data, pos⟩) = (verdict (ipv4Of bytes ⟨data, pos⟩)).map .a := by
  have hFits : pos + bytes.length ≤ data.length :=
    drop_fits h (fun hNone => by simp [hNone] at hLength)
  rw [hLength] at hFits
  have hTake := take_drop h (by omega)
  rw [hLength] at hTake
  rw [readA, bind_apply, hTake]
  obtain ⟨a, b, c, d, rfl⟩ : ∃ a b c d, bytes = [a, b, c, d] := by
    match bytes, hLength with
    | [a, b, c, d], _ => exact ⟨a, b, c, d, rfl⟩
  rfl

theorem readStrings_stop {stop : Nat} (hStop : stop ≤ pos) (turns : Nat)
    (strings : List (List Byte)) :
    readStrings stop turns strings ⟨data, pos⟩ = .ok strings ⟨data, pos⟩ := by
  cases turns with
  | zero =>
      rw [readStrings, bind_apply]
      exact congrFun (if_neg (Nat.not_lt.mpr hStop)) _
  | succ turns =>
      rw [readStrings, bind_apply]
      exact congrFun (if_neg (Nat.not_lt.mpr hStop)) _

theorem readStrings_turn {stop : Nat} (hMore : pos < stop) (turns : Nat)
    (strings : List (List Byte)) :
    readStrings stop (turns + 1) strings ⟨data, pos⟩ =
      (readU8 >>= fun len => take len.toNat >>= fun string =>
        readStrings stop turns (strings ++ [string])) ⟨data, pos⟩ := by
  rw [readStrings, bind_apply]
  exact congrFun (if_pos hMore) _

/-- Character-strings are read as they lie there, wherever that is. -/
theorem readStrings_fit {bytes : List Byte} (hFits : StringsFit bytes) :
    ∃ found, ∀ (data : List Byte) (pos turns : Nat) (strings : List (List Byte)) (rest : List Byte),
      data.drop pos = bytes ++ rest → bytes.length ≤ turns →
        verdict (readStrings (pos + bytes.length) turns strings ⟨data, pos⟩) =
          .ok (strings ++ found) := by
  induction hFits with
  | nil =>
      refine ⟨[], fun data pos turns strings rest _ _ => ?_⟩
      rw [readStrings_stop (by simp)]
      simp
  | @cons len string rest hString hRest ih =>
      obtain ⟨found, ih⟩ := ih
      refine ⟨string :: found, fun data pos turns strings more h hTurns => ?_⟩
      simp only [List.length_cons, List.length_append] at hTurns
      obtain ⟨turns, rfl⟩ : ∃ n, turns = n + 1 := ⟨turns - 1, by omega⟩
      rw [List.cons_append, List.append_assoc] at h
      obtain ⟨_, hAfter, hInside⟩ := drop_cons h
      have hNext := (drop_append hAfter).2
      have hTake := take_drop hAfter hInside
      rw [readStrings_turn (by simp only [List.length_cons]; omega), bind_apply, readU8_drop h]
      simp only
      rw [bind_apply, ← hString, hTake]
      simp only
      have hStop : pos + (len :: (string ++ rest)).length =
          pos + 1 + string.length + rest.length := by
        simp only [List.length_cons, List.length_append]
        omega
      rw [hStop, ih data _ turns _ more hNext (by omega)]
      simp

theorem verdict_readData_ptr {len : Nat} :
    verdict (readData typePtr len ⟨data, pos⟩) =
      (verdict (readName ⟨data, pos⟩)).map .ptr := verdict_map readName RecordData.ptr ⟨data, pos⟩

theorem verdict_readData_txt {len : Nat} :
    verdict (readData typeTxt len ⟨data, pos⟩) =
      (verdict (readStrings (pos + len) len [] ⟨data, pos⟩)).map .txt :=
  verdict_map (readStrings (pos + len) len []) RecordData.txt ⟨data, pos⟩

theorem readData_srv {len : Nat} : readData typeSrv len ⟨data, pos⟩ = readSrv ⟨data, pos⟩ := rfl

theorem readData_a {len : Nat} : readData typeA len ⟨data, pos⟩ = readA ⟨data, pos⟩ := rfl

theorem readData_other {recordType : UInt16} {len : Nat} (hPtr : recordType ≠ typePtr)
    (hSrv : recordType ≠ typeSrv) (hTxt : recordType ≠ typeTxt) (hA : recordType ≠ typeA) :
    readData recordType len ⟨data, pos⟩ = .ok .other ⟨data, pos⟩ := by
  rw [readData, bind_apply]
  show (if _ then _ else _ : Parse RecordData) _ = _
  rw [if_neg hPtr, if_neg hSrv, if_neg hTxt, if_neg hA]
  rfl

/-- A name in place, with what it points to. -/
theorem readName_agree {bytes : List Byte} (hFits : NameFits bytes) {a b : Nat}
    {pTail qTail : List Byte} (hP : p.drop a = bytes ++ pTail) (hQ : q.drop b = bytes ++ qTail)
    (hPointed : ∀ i, PointedTo p (a + bytes.length) a i → p[i]? = q[i]?) :
    verdict (readName ⟨p, a⟩) = verdict (readName ⟨q, b⟩) := by
  rw [verdict_readName, verdict_readName,
    nameFits_agree hFits _ _ [] hP hQ hPointed enoughTurns_start enoughTurns_start]

theorem exists_six {bytes : List Byte} (h : 6 ≤ bytes.length) :
    ∃ a b c d e f, bytes = a :: b :: c :: d :: e :: f :: bytes.drop 6 := by
  match bytes, h with
  | a :: b :: c :: d :: e :: f :: rest, _ => exact ⟨a, b, c, d, e, f, rfl⟩

/-- **Data that fits is decoded alike from any two packets it lies in.** -/
theorem readData_agree {e : Envelope} {i j : Nat} {pTail qTail : List Byte}
    (hFits : Fits e.recordType e.rdata) (hP : p.drop i = e.rdata ++ pTail)
    (hQ : q.drop j = e.rdata ++ qTail) (hPointed : ∀ k, pointedTo e p i k → p[k]? = q[k]?) :
    verdict (readData e.recordType e.rdata.length ⟨p, i⟩) =
      verdict (readData e.recordType e.rdata.length ⟨q, j⟩) := by
  unfold Fits at hFits
  unfold pointedTo at hPointed
  by_cases hPtr : e.recordType = typePtr
  · rw [if_pos hPtr] at hFits
    simp only [if_pos hPtr] at hPointed
    rw [hPtr, verdict_readData_ptr, verdict_readData_ptr, readName_agree hFits hP hQ hPointed]
  · rw [if_neg hPtr] at hFits
    simp only [if_neg hPtr] at hPointed
    by_cases hSrv : e.recordType = typeSrv
    · rw [if_pos hSrv] at hFits
      simp only [if_pos hSrv] at hPointed
      obtain ⟨a, b, c, d, g, h, hBytes⟩ := exists_six hFits.1
      have hLength : e.rdata.length = 6 + (e.rdata.drop 6).length := by
        rw [List.length_drop]
        omega
      rw [hBytes] at hP hQ
      rw [hLength, ← Nat.add_assoc] at hPointed
      have hNameP : p.drop (i + 6) = e.rdata.drop 6 ++ pTail := by
        rw [← List.drop_drop, hP]
        rfl
      have hNameQ : q.drop (j + 6) = e.rdata.drop 6 ++ qTail := by
        rw [← List.drop_drop, hQ]
        rfl
      rw [hSrv, readData_srv, readData_srv, readSrv_drop hP, readSrv_drop hQ,
        readName_agree hFits.2 hNameP hNameQ hPointed]
    · rw [if_neg hSrv] at hFits
      by_cases hTxt : e.recordType = typeTxt
      · rw [if_pos hTxt] at hFits
        obtain ⟨found, hFound⟩ := readStrings_fit hFits
        rw [hTxt, verdict_readData_txt, verdict_readData_txt,
          hFound p i _ [] pTail hP (Nat.le_refl _), hFound q j _ [] qTail hQ (Nat.le_refl _)]
      · rw [if_neg hTxt] at hFits
        by_cases hA : e.recordType = typeA
        · rw [if_pos hA] at hFits
          have hSplit : e.rdata = e.rdata.take 4 ++ e.rdata.drop 4 :=
            (List.take_append_drop 4 e.rdata).symm
          have hFour : (e.rdata.take 4).length = 4 := by
            rw [List.length_take]
            omega
          rw [hSplit, List.append_assoc] at hP hQ
          rw [hA, readData_a, readData_a, readA_drop hP hFour, readA_drop hQ hFour]
          match e.rdata.take 4, hFour with
          | [a, b, c, d], _ => rfl
        · rw [readData_other hPtr hSrv hTxt hA, readData_other hPtr hSrv hTxt hA]
          rfl

/-! ## Data that does not fit -/

theorem readU16_short {bytes : List Byte} (h : data.drop pos = bytes) (hShort : bytes.length < 2) :
    verdict (readU16 ⟨data, pos⟩) = .error .truncated := by
  cases bytes with
  | nil =>
      have hNone : data[pos]? = none := by
        rw [List.getElem?_eq_none_iff]
        exact List.drop_eq_nil_iff.mp h
      rw [readU16, bind_apply, readU8_none hNone]
      rfl
  | cons hi rest =>
      simp only [List.length_cons] at hShort
      have hRest : rest = [] := List.length_eq_zero_iff.mp (by omega)
      have hNone : data[pos + 1]? = none := by
        rw [List.getElem?_eq_none_iff]
        exact List.drop_eq_nil_iff.mp ((drop_cons h).2.1.trans hRest)
      rw [readU16, bind_apply, readU8_drop h]
      simp only
      rw [bind_apply, readU8_none hNone]
      rfl

/-- A sequence whose first part is cut short. -/
theorem truncated_bind {α β : Type} {x : Parse α} {f : α → Parse β} {r : Parser}
    (h : verdict (x r) = .error .truncated) : verdict ((x >>= f) r) = .error .truncated := by
  rw [bind_apply]
  cases hRead : x r with
  | ok a s =>
      rw [hRead] at h
      cases h
  | error failure s =>
      rw [hRead] at h
      have hKind : failure.kind = .truncated := Except.error.inj h
      simp [hKind]

/-- A sequence whose first part is two bytes. -/
theorem truncated_readU16 {β : Type} {f : UInt16 → Parse β} {bytes : List Byte}
    (h : data.drop pos = bytes)
    (hRest : ∀ value, 2 ≤ bytes.length →
      verdict (f value ⟨data, pos + 2⟩) = .error .truncated) :
    verdict ((readU16 >>= f) ⟨data, pos⟩) = .error .truncated := by
  by_cases hShort : bytes.length < 2
  · exact truncated_bind (readU16_short h hShort)
  · match bytes, hShort, h with
    | hi :: lo :: rest, _, h =>
        rw [bind_apply, readU16_drop h]
        exact hRest _ (by simp)
    | [_], hShort, _ => exact absurd (by simp) hShort
    | [], hShort, _ => exact absurd (by simp) hShort

theorem readName_truncated {bytes : List Byte} (hFits : ¬ NameFits bytes)
    (h : data.drop pos = bytes) : verdict (readName ⟨data, pos⟩) = .error .truncated := by
  rw [verdict_readName, nameTruncated hFits bytes.length (Nat.le_refl _) _ [] h enoughTurns_start]
  rfl

theorem readSrv_truncated {bytes : List Byte} (h : data.drop pos = bytes)
    (hFits : ¬ (6 ≤ bytes.length ∧ NameFits (bytes.drop 6))) :
    verdict (readSrv ⟨data, pos⟩) = .error .truncated := by
  have hDrop : ∀ n, data.drop (pos + n) = bytes.drop n := by
    intro n
    rw [← List.drop_drop, h]
  refine truncated_readU16 h fun priority hPriority => ?_
  refine truncated_readU16 (hDrop 2) fun weight hWeight => ?_
  refine truncated_readU16 (hDrop 4) fun port hPort => truncated_bind ?_
  refine readName_truncated (fun hName => hFits ⟨?_, hName⟩) (hDrop 6)
  simp only [List.length_drop] at hPort
  omega

/-- Character-strings the last of which runs into the end of the packet. -/
theorem readStrings_truncated {bytes : List Byte} (hFits : ¬ StringsFit bytes) (turns : Nat)
    (strings : List (List Byte)) (h : data.drop pos = bytes) (hTurns : bytes.length ≤ turns) :
    verdict (readStrings (pos + bytes.length) turns strings ⟨data, pos⟩) =
      .error .truncated := by
  induction turns generalizing bytes pos strings with
  | zero =>
      have hNone : bytes = [] := List.length_eq_zero_iff.mp (by omega)
      exact absurd (hNone ▸ .nil) hFits
  | succ turns ih =>
      cases bytes with
      | nil => exact absurd .nil hFits
      | cons len rest =>
          obtain ⟨_, hAfter, hInside⟩ := drop_cons h
          have hLength := congrArg List.length hAfter
          simp only [List.length_drop] at hLength
          simp only [List.length_cons] at hTurns
          rw [readStrings_turn (by simp only [List.length_cons]; omega), bind_apply, readU8_drop h]
          simp only
          by_cases hString : len.toNat ≤ rest.length
          · have hSplit : rest = rest.take len.toNat ++ rest.drop len.toNat :=
              (List.take_append_drop _ _).symm
            have hTaken : (rest.take len.toNat).length = len.toNat := by
              rw [List.length_take]
              omega
            have hRest : ¬ StringsFit (rest.drop len.toNat) := by
              intro hThere
              apply hFits
              rw [hSplit]
              exact .cons hTaken hThere
            have hNext : data.drop (pos + 1 + len.toNat) = rest.drop len.toNat := by
              rw [← List.drop_drop, hAfter]
            have hStop : pos + (len :: rest).length =
                pos + 1 + len.toNat + (rest.drop len.toNat).length := by
              simp only [List.length_cons, List.length_drop]
              omega
            rw [bind_apply, take_fits (by omega), hStop]
            refine ih hRest _ hNext ?_
            rw [List.length_drop]
            omega
          · rw [bind_apply, take_short hInside (by omega)]
            rfl

/-- Data that does not fit is cut short where nothing follows its record. -/
theorem readData_truncated {recordType : UInt16} {bytes : List Byte}
    (hFits : ¬ Fits recordType bytes) (h : data.drop pos = bytes) (hPos : pos ≤ data.length) :
    verdict (readData recordType bytes.length ⟨data, pos⟩) = .error .truncated := by
  unfold Fits at hFits
  by_cases hPtr : recordType = typePtr
  · rw [if_pos hPtr] at hFits
    rw [hPtr, verdict_readData_ptr, readName_truncated hFits h]
    rfl
  · rw [if_neg hPtr] at hFits
    by_cases hSrv : recordType = typeSrv
    · rw [if_pos hSrv] at hFits
      rw [hSrv, readData_srv, readSrv_truncated h hFits]
    · rw [if_neg hSrv] at hFits
      by_cases hTxt : recordType = typeTxt
      · rw [if_pos hTxt] at hFits
        rw [hTxt, verdict_readData_txt, readStrings_truncated hFits _ [] h (Nat.le_refl _)]
        rfl
      · rw [if_neg hTxt] at hFits
        by_cases hA : recordType = typeA
        · rw [if_pos hA] at hFits
          have hLength := congrArg List.length h
          rw [List.length_drop] at hLength
          rw [hA, readData_a]
          refine truncated_bind ?_
          rw [take_short hPos (by omega)]
          rfl
        · rw [if_neg hA] at hFits
          exact absurd trivial hFits

/-- Zeros behind the record, more than any name, string or address takes. -/
def Cushioned (data : List Byte) (stop : Nat) : Prop :=
  stop + 320 ≤ data.length ∧ ∀ i, stop ≤ i → i < data.length → data[i]? = some 0

theorem Cushioned.padded {stop : Nat} (h : Cushioned data stop) : Padded data :=
  fun i hLate hInside => h.2 i (by have := h.1; omega) hInside

/-- A read that is not cut short, with the cursor where it then is. -/
def Completes {α : Type} (read : Parse α) (r : Parser) : Prop :=
  verdict (read r) ≠ .error .truncated

theorem completes_bind {α β : Type} {x : Parse α} {f : α → Parse β} {r : Parser}
    (h : Completes x r) (hThen : ∀ a s, x r = .ok a s → Completes (f a) s) :
    Completes (x >>= f) r := by
  unfold Completes at h hThen ⊢
  rw [bind_apply]
  cases hRead : x r with
  | ok a s => exact hThen a s hRead
  | error failure s =>
      rw [hRead] at h
      have hKind : failure.kind ≠ .truncated := fun hSame => h (congrArg Except.error hSame)
      simp [hKind]

theorem map_ne_truncated {α β : Type} {x : Except FailureKind α} (f : α → β)
    (h : x ≠ .error .truncated) : x.map f ≠ .error .truncated := by
  cases x with
  | ok a => exact fun hSame => nomatch hSame
  | error kind => exact fun hSame => h (congrArg Except.error (Except.error.inj hSame))

theorem completes_readU8 (hInside : pos < data.length) : Completes readU8 ⟨data, pos⟩ := by
  unfold Completes
  rw [readU8_some (List.getElem?_eq_getElem hInside)]
  simp

theorem completes_readU16 (hInside : pos + 1 < data.length) : Completes readU16 ⟨data, pos⟩ := by
  refine completes_bind (completes_readU8 (by omega)) fun hi s hHi => ?_
  obtain ⟨_, rfl⟩ := readU8_ok hHi
  refine completes_bind (completes_readU8 hInside) fun lo s _ => ?_
  simp [Completes, pure, EStateM.pure]

theorem completes_take {len : Nat} (hFits : pos + len ≤ data.length) :
    Completes (take len) ⟨data, pos⟩ := by
  unfold Completes
  rw [take_fits hFits]
  simp

theorem completes_readName (hPadded : Padded data) (hInside : pos < data.length) :
    Completes readName ⟨data, pos⟩ := by
  unfold Completes
  rw [verdict_readName]
  exact map_ne_truncated _ (padded_name hPadded hInside _ [] enoughTurns_start)

theorem completes_readStrings {stop : Nat} (hCushion : Cushioned data stop) (turns : Nat)
    (strings : List (List Byte)) : Completes (readStrings stop turns strings) ⟨data, pos⟩ := by
  induction turns generalizing pos strings with
  | zero =>
      rw [readStrings]
      have hGet : Completes (get : Parse Parser) ⟨data, pos⟩ := by
        intro hTruncated
        cases hTruncated
      refine completes_bind hGet ?_
      intro p s _
      unfold Completes
      by_cases hMore : p.pos < stop
      · rw [if_pos hMore]
        intro hTruncated
        cases hTruncated
      · rw [if_neg hMore]
        intro hTruncated
        cases hTruncated
  | succ turns ih =>
      by_cases hMore : pos < stop
      · unfold Completes
        rw [readStrings_turn hMore]
        have hLength := hCushion.1
        refine completes_bind (completes_readU8 (by omega)) fun len s hLen => ?_
        obtain ⟨_, rfl⟩ := readU8_ok hLen
        have hByte := len.toNat_lt
        refine completes_bind (completes_take (by omega)) fun string s hString => ?_
        obtain ⟨_, _, rfl⟩ := take_ok hString
        exact ih _
      · unfold Completes
        rw [readStrings_stop (by omega)]
        simp

/-- With zeros behind it, no record's data is cut short. -/
theorem completes_readData {recordType : UInt16} {len : Nat}
    (hCushion : Cushioned data (pos + len)) :
    Completes (readData recordType len) ⟨data, pos⟩ := by
  have hLength := hCushion.1
  have hPadded := hCushion.padded
  by_cases hPtr : recordType = typePtr
  · subst hPtr
    unfold Completes
    rw [verdict_readData_ptr]
    exact map_ne_truncated _ (completes_readName hPadded (by omega))
  · by_cases hSrv : recordType = typeSrv
    · subst hSrv
      unfold Completes
      rw [readData_srv]
      refine completes_bind (completes_readU16 (by omega)) fun priority s h => ?_
      obtain ⟨_, _, _, _, rfl⟩ := readU16_ok h
      refine completes_bind (completes_readU16 (by omega)) fun weight s h => ?_
      obtain ⟨_, _, _, _, rfl⟩ := readU16_ok h
      refine completes_bind (completes_readU16 (by omega)) fun port s h => ?_
      obtain ⟨_, _, _, _, rfl⟩ := readU16_ok h
      exact completes_bind (completes_readName hPadded (by omega)) fun _ _ _ h => nomatch h
    · by_cases hTxt : recordType = typeTxt
      · subst hTxt
        unfold Completes
        rw [verdict_readData_txt]
        exact map_ne_truncated _ (completes_readStrings hCushion len [])
      · by_cases hA : recordType = typeA
        · subst hA
          unfold Completes
          rw [readData_a]
          refine completes_bind (completes_take (by omega)) fun octets s h => ?_
          obtain ⟨hFour, _, rfl⟩ := take_ok h
          match octets, hFour with
          | [a, b, c, d], _ => exact fun h => nomatch h
        · unfold Completes
          rw [readData_other hPtr hSrv hTxt hA]
          simp

/-! ## The same record elsewhere -/

/-- A name written out, without pointers. -/
def labelBytes (labels : List (List Byte)) : List Byte :=
  (labels.flatMap fun label => UInt8.ofNat label.length :: label) ++ [0]

/-- Labels that a name can have. -/
def ValidLabels (labels : List (List Byte)) : Prop :=
  ∀ label ∈ labels, 1 ≤ label.length ∧ label.length ≤ 63

theorem Resolves.valid {stop : Nat} {labels : List (List Byte)} {targets : List Nat}
    (h : Resolves data pos labels targets stop) : ValidLabels labels := by
  induction h with
  | root hByte => simp [ValidLabels]
  | label hByte hSome hShort hFits hRest ih =>
      intro label hMem
      rcases List.mem_cons.mp hMem with rfl | hMem
      · rw [length_slice hFits]
        exact ⟨hSome, hShort⟩
      · exact ih label hMem
  | pointer hByte hPointer hLow hTarget hRest ih => exact ih

theorem resolves_labelBytes {labels : List (List Byte)} {rest : List Byte}
    (hValid : ValidLabels labels) (h : data.drop pos = labelBytes labels ++ rest) :
    Resolves data pos labels [] (pos + (labelBytes labels).length) := by
  induction labels generalizing pos with
  | nil => exact .root (drop_cons h).1
  | cons label labels ih =>
      obtain ⟨hSome, hShort⟩ := hValid label (by simp)
      have hLen : (UInt8.ofNat label.length).toNat = label.length := by
        rw [UInt8.toNat_ofNat']
        omega
      have hHere : data.drop pos =
          UInt8.ofNat label.length :: (label ++ (labelBytes labels ++ rest)) := by
        rw [h]
        simp [labelBytes]
      obtain ⟨hByte, hAfter, _⟩ := drop_cons hHere
      obtain ⟨hSlice, hNext⟩ := drop_append hAfter
      have hFits : pos + 1 + label.length ≤ data.length :=
        drop_fits hAfter (fun hNone => by simp [hNone] at hSome)
      have hRest := ih (fun other hMem => hValid other (by simp [hMem])) hNext
      have hLabel := Resolves.label hByte (by omega) (by omega) (by omega) (hLen.symm ▸ hRest)
      rw [hLen, hSlice] at hLabel
      have hStop : pos + (labelBytes (label :: labels)).length =
          pos + 1 + label.length + (labelBytes labels).length := by
        simp only [labelBytes, List.flatMap_cons, List.length_append, List.length_cons]
        omega
      rw [hStop]
      exact hLabel

/-- Any record can lie at its offset in a packet with anything behind it. -/
theorem exists_transplant {e : Envelope} {i : Nat} {r : Parser}
    (h : readEnvelope ⟨data, pos⟩ = .ok (e, i) r) :
    ∃ first, ∀ tail, ∃ s,
      readEnvelope ⟨first ++ (e.rdata ++ tail), pos⟩ = .ok (e, first.length) s := by
  obtain ⟨a, t, u, c, d, k, l, m, n, x, y, hOwner, _, _, _, hType, hClass, hTtl, hLength⟩ :=
    readEnvelope_ok h
  obtain ⟨_, labels, targets, hName, _, _, hText⟩ := readName_ok_iff.mp hOwner
  have hPos : pos ≤ data.length := by
    cases hName with
    | root hByte => exact Nat.le_of_lt (List.getElem?_eq_some_iff.mp hByte).1
    | label hByte _ _ _ _ => exact Nat.le_of_lt (List.getElem?_eq_some_iff.mp hByte).1
    | pointer hByte _ _ _ _ => exact Nat.le_of_lt (List.getElem?_eq_some_iff.mp hByte).1
  have hAhead : (data.take pos).length = pos := by
    rw [List.length_take]
    omega
  refine ⟨data.take pos ++ (labelBytes labels ++ [t, u, c, d, k, l, m, n, x, y]), fun tail => ?_⟩
  generalize hPacket : data.take pos ++ (labelBytes labels ++ [t, u, c, d, k, l, m, n, x, y]) ++
    (e.rdata ++ tail) = packet
  have hDrop : packet.drop pos =
      labelBytes labels ++ t :: u :: c :: d :: k :: l :: m :: n :: x :: y :: (e.rdata ++ tail) := by
    rw [← hPacket, List.append_assoc, List.drop_append_of_le_length (by omega),
      List.drop_of_length_le (by omega)]
    simp
  have hFixed := (drop_append hDrop).2
  have hOwner' : readName ⟨packet, pos⟩ =
      .ok e.owner ⟨packet, pos + (labelBytes labels).length⟩ :=
    readName_ok_iff.mpr ⟨rfl, labels, [], resolves_labelBytes hName.valid hDrop, List.nodup_nil,
      Nat.zero_le _, hText⟩
  have hRead := readEnvelope_of hOwner' hFixed hLength
  rw [← hType, ← hClass, ← hTtl] at hRead
  have hEnd : (data.take pos ++ (labelBytes labels ++ [t, u, c, d, k, l, m, n, x, y])).length =
      pos + (labelBytes labels).length + 10 := by
    simp only [List.length_append, hAhead, List.length_cons, List.length_nil]
    omega
  rw [hEnd]
  exact ⟨_, hRead⟩

/-- Only a name that is settled in place has pointers in place. -/
theorem PointedTo.nameFits {stop a i : Nat} (h : PointedTo data stop a i) {bytes rest : List Byte}
    (hDrop : data.drop a = bytes ++ rest) (hStop : stop = a + bytes.length) : NameFits bytes := by
  induction h generalizing bytes with
  | @next a i len hByte hSome hShort hInside hRest ih =>
      cases bytes with
      | nil =>
          simp only [List.length_nil] at hStop
          omega
      | cons byte more =>
          rw [List.cons_append] at hDrop
          obtain ⟨hThere, hAfter, _⟩ := drop_cons hDrop
          rw [hByte] at hThere
          cases hThere
          simp only [List.length_cons] at hStop
          have hSplit : more = more.take len.toNat ++ more.drop len.toNat :=
            (List.take_append_drop _ _).symm
          have hTaken : (more.take len.toNat).length = len.toNat := by
            rw [List.length_take]
            omega
          have hNext : data.drop (a + 1 + len.toNat) = more.drop len.toNat ++ rest := by
            rw [← List.drop_drop, hAfter, List.drop_append_of_le_length (by omega)]
          rw [hSplit]
          refine .label hSome hShort hTaken (ih hNext ?_)
          rw [List.length_drop]
          omega
  | @target a i hi lo hByte hPointer hInside hLow hRest =>
      match bytes, hStop, hDrop with
      | [], hStop, _ =>
          simp only [List.length_nil] at hStop
          omega
      | [_], hStop, _ =>
          simp only [List.length_cons, List.length_nil] at hStop
          omega
      | byte :: low :: more, _, hDrop =>
          have hThere := (drop_cons hDrop).1
          rw [hByte] at hThere
          cases hThere
          exact .pointer low more hPointer

theorem not_pointedTo {e : Envelope} {i k : Nat} {rest : List Byte}
    (hFits : ¬ Fits e.recordType e.rdata) (h : data.drop i = e.rdata ++ rest) :
    ¬ pointedTo e data i k := by
  intro hPointed
  unfold pointedTo at hPointed
  unfold Fits at hFits
  by_cases hPtr : e.recordType = typePtr
  · rw [if_pos hPtr] at hPointed hFits
    exact hFits (hPointed.nameFits h rfl)
  · rw [if_neg hPtr] at hPointed hFits
    by_cases hSrv : e.recordType = typeSrv
    · rw [if_pos hSrv] at hPointed hFits
      by_cases hSix : 6 ≤ e.rdata.length
      · have hName : data.drop (i + 6) = e.rdata.drop 6 ++ rest := by
          rw [← List.drop_drop, h, List.drop_append_of_le_length hSix]
        refine hFits ⟨hSix, hPointed.nameFits hName ?_⟩
        rw [List.length_drop]
        omega
      · -- the name would start behind the record
        cases hPointed with
        | next _ _ _ hInside _ => omega
        | target _ _ hInside _ _ => omega
    · rw [if_neg hSrv] at hPointed
      exact hPointed

/-- **Records alike are decoded alike exactly if their data fits.**  Whatever
record a packet has at an offset, any packet with the same record there, and
the same bytes where its data points, gives the same data or the same kind of
failure, if and only if the data ends within the record. -/
theorem rdata_contained_iff (p : List Byte) (pos : Nat) :
    Contained p pos ↔
      ∀ e i r, readEnvelope ⟨p, pos⟩ = .ok (e, i) r → Fits e.recordType e.rdata := by
  constructor
  · intro hContained e i r h
    refine Classical.byContradiction fun hFits => ?_
    obtain ⟨first, hFirst⟩ := exists_transplant h
    obtain ⟨a, t, u, c, d, k, l, m, n, x, y, _, _, _, hData, _⟩ := readEnvelope_ok h
    have hAlike := fun q j s hq => hContained q e i j r s h hq fun k hPointed =>
      absurd hPointed (not_pointedTo hFits hData)
    -- with nothing behind it the record is cut short
    obtain ⟨s, hBare⟩ := hFirst []
    have hCut := hAlike _ _ s hBare
    -- with zeros behind it, it is not
    obtain ⟨s', hZeros⟩ := hFirst (List.replicate 320 0)
    have hWhole := hAlike _ _ s' hZeros
    rw [readRecord_of hBare, readData_truncated hFits (by simp) (by simp)] at hCut
    rw [readRecord_of hZeros, hCut] at hWhole
    refine map_ne_truncated _ (completes_readData ⟨?_, fun k hFrom hTo => ?_⟩) hWhole.symm
    · simp only [List.length_append, List.length_replicate]
      omega
    · have hIndex : first.length + e.rdata.length ≤ k := hFrom
      simp only [List.length_append, List.length_replicate] at hTo
      rw [List.getElem?_append_right (by omega), List.getElem?_append_right (by omega),
        List.getElem?_replicate, if_pos (by omega)]
  · intro hFits q e i j p' q' hP hQ hPointed
    obtain ⟨_, _, _, _, _, _, _, _, _, _, _, _, _, _, hDataP, _⟩ := readEnvelope_ok hP
    obtain ⟨_, _, _, _, _, _, _, _, _, _, _, _, _, _, hDataQ, _⟩ := readEnvelope_ok hQ
    rw [readRecord_of hP, readRecord_of hQ,
      readData_agree (hFits e i p' hP) hDataP hDataQ hPointed]

/-- An address that its record has no room for is read from what follows. -/
theorem address_borrowed :
    ¬ ∀ (p : List Byte) (pos : Nat), Contained p pos := by
  intro hAll
  have hRoom : ¬ Fits 1 [] := fun hFour => absurd (show 4 ≤ 0 from hFour) (by decide)
  have hDrop : List.drop 11 [0, 0, 1, 0, 1, 0, 0, 0, 0, 0, 0, 10, 0, 0, 1] =
      ([] ++ [10, 0, 0, 1] : List Byte) := rfl
  have hAlike := hAll [0, 0, 1, 0, 1, 0, 0, 0, 0, 0, 0, 10, 0, 0, 1] 0
    [0, 0, 1, 0, 1, 0, 0, 0, 0, 0, 0, 10, 0, 0, 2] ⟨"", 1, 1, 0, []⟩ 11 11 _ _ rfl rfl
    (fun k hPointed => absurd hPointed (not_pointedTo hRoom hDrop))
  have hFirst : verdict (readRecord ⟨[0, 0, 1, 0, 1, 0, 0, 0, 0, 0, 0, 10, 0, 0, 1], 0⟩) =
      .ok ⟨"", 1, 0, .a 0x0A000001⟩ := rfl
  have hSecond : verdict (readRecord ⟨[0, 0, 1, 0, 1, 0, 0, 0, 0, 0, 0, 10, 0, 0, 2], 0⟩) =
      .ok ⟨"", 1, 0, .a 0x0A000002⟩ := rfl
  rw [hFirst, hSecond] at hAlike
  exact absurd (Except.ok.inj hAlike) (by decide)

end CastApp.Cast.Dns
