import CastApp.Cast.Dns

/-!
# Names in a packet

What a name is: labels of one to 63 bytes, up to a zero byte or a pointer to
where the name goes on.  `read_name` finds exactly the names that follow few
enough pointers and none of them twice, and refuses everything else.

* `Resolves` — the labels and the pointers of the name at an offset.
* `readNameInto_turn` — what one turn of the decoder does.
* `readNameInto_sound`, `readNameInto_complete` — the decoder against the names.
* `readNameInto_refuses` — whatever else there is, is refused.
* `name_decoding` — what is decoded from where.
-/

namespace CastApp.Cast.Dns

open CastApp.State
open CastApp.Util.Utf8
open CastApp.Cast.Mdns (DnsError)

variable {data : List Byte} {pos : Nat}

/-! ## What is at an offset -/

/-- The name at an offset: its labels, the targets of the pointers it follows,
and where the bytes behind it start. -/
inductive Resolves (data : List Byte) : Nat → List (List Byte) → List Nat → Nat → Prop
  | root {pos : Nat} (hByte : data[pos]? = some 0) : Resolves data pos [] [] (pos + 1)
  | label {pos stop : Nat} {len : Byte} {labels : List (List Byte)} {targets : List Nat}
      (hByte : data[pos]? = some len) (hSome : 1 ≤ len.toNat) (hShort : len.toNat ≤ 63)
      (hFits : pos + 1 + len.toNat ≤ data.length)
      (hRest : Resolves data (pos + 1 + len.toNat) labels targets stop) :
      Resolves data pos (slice data (pos + 1) len.toNat :: labels) targets stop
  | pointer {pos stop : Nat} {hi lo : Byte} {labels : List (List Byte)} {targets : List Nat}
      (hByte : data[pos]? = some hi) (hPointer : 192 ≤ hi.toNat)
      (hLow : data[pos + 1]? = some lo) (hTarget : (hi.toNat - 192) * 256 + lo.toNat < data.length)
      (hRest : Resolves data ((hi.toNat - 192) * 256 + lo.toNat) labels targets stop) :
      Resolves data pos labels (((hi.toNat - 192) * 256 + lo.toNat) :: targets) (pos + 2)

/-! ## One turn -/

/-- What a turn of the decoder comes upon. -/
inductive NameTurn : Type
  | root
  | label (bytes : List Byte)
  | pointer (target : Nat)
  /-- Not a name, as seen with the cursor at `stop`. -/
  | refused (error : DnsError) (stop : Nat)

def nameTurn (data : List Byte) (pos depth : Nat) (visited : List Nat) : NameTurn :=
  match data[pos]? with
  | none => .refused (.truncated data.length) pos
  | some byte =>
      if byte = 0 then .root
      else if 192 ≤ byte.toNat then
        if depth ≥ maxPointerDepth then .refused .pointerDepthExceeded (pos + 1)
        else
          match data[pos + 1]? with
          | none => .refused (.truncated data.length) (pos + 1)
          | some low =>
              let target := (byte.toNat - 192) * 256 + low.toNat
              if target ≥ data.length then .refused (.pointerOutOfBounds target) (pos + 2)
              else if target ∈ visited then .refused .pointerCycle (pos + 2)
              else .pointer target
      else if 64 ≤ byte.toNat then .refused (.badLabelLength byte) (pos + 1)
      else if pos + 1 + byte.toNat ≤ data.length then
        .label (slice data (pos + 1) byte.toNat)
      else .refused (.truncated data.length) (pos + 1)

/-- The two high bits, by value. -/
theorem pointer_bits (byte : Byte) : byte &&& 0xC0 = 0xC0 ↔ 192 ≤ byte.toNat := by
  have hAll : ∀ n : Fin 256, UInt8.ofNat n.val &&& 0xC0 = 0xC0 ↔ 192 ≤ n.val := by decide +kernel
  have h := hAll ⟨byte.toNat, byte.toNat_lt⟩
  simpa using h

theorem label_bits (byte : Byte) : byte &&& 0xC0 ≠ 0 ↔ 64 ≤ byte.toNat := by
  have hAll : ∀ n : Fin 256, UInt8.ofNat n.val &&& 0xC0 ≠ 0 ↔ 64 ≤ n.val := by decide +kernel
  have h := hAll ⟨byte.toNat, byte.toNat_lt⟩
  simpa using h

theorem offset_bits {byte : Byte} (hPointer : 192 ≤ byte.toNat) (low : Byte) :
    (byte &&& 0x3F).toNat <<< 8 ||| low.toNat = (byte.toNat - 192) * 256 + low.toNat := by
  have hAll : ∀ n : Fin 256, 192 ≤ n.val → (UInt8.ofNat n.val &&& 0x3F).toNat = n.val - 192 := by
    decide +kernel
  have hHigh := hAll ⟨byte.toNat, byte.toNat_lt⟩ hPointer
  simp only [UInt8.ofNat_toNat] at hHigh
  have hLow : low.toNat < 2 ^ 8 := low.toNat_lt
  rw [hHigh, ← Nat.shiftLeft_add_eq_or_of_lt hLow, Nat.shiftLeft_eq]

/-- **One turn of the decoder.** -/
theorem readNameInto_turn (turns : Nat) (labels : List String) (depth : Nat) (visited : List Nat) :
    readNameInto (turns + 1) labels depth visited ⟨data, pos⟩ =
      match nameTurn data pos depth visited with
      | .root => .ok labels ⟨data, pos + 1⟩
      | .label bytes =>
          readNameInto turns (labels ++ [fromUtf8Lossy bytes]) depth visited
            ⟨data, pos + 1 + bytes.length⟩
      | .pointer target =>
          readAt target (readNameInto turns labels (depth + 1) (visited ++ [target]))
            ⟨data, pos + 2⟩
      | .refused error stop => .error (.dns error) ⟨data, stop⟩ := by
  rw [readNameInto, bind_apply]
  unfold nameTurn
  cases hByte : data[pos]? with
  | none => rw [readU8_none hByte]
  | some byte =>
      obtain ⟨hPos, _⟩ := List.getElem?_eq_some_iff.mp hByte
      rw [readU8_some hByte]
      simp only
      by_cases hRoot : byte = 0
      · rw [if_pos hRoot, if_pos hRoot]
        rfl
      · rw [if_neg hRoot, if_neg hRoot]
        by_cases hPointer : 192 ≤ byte.toNat
        · rw [if_pos ((pointer_bits byte).mpr hPointer), if_pos hPointer]
          by_cases hDepth : depth ≥ maxPointerDepth
          · rw [if_pos hDepth, if_pos hDepth]
            rfl
          · rw [if_neg hDepth, if_neg hDepth, bind_apply]
            cases hLow : data[pos + 1]? with
            | none => rw [readU8_none hLow]
            | some low =>
                rw [readU8_some hLow]
                simp only [offset_bits hPointer]
                rw [bind_apply]
                show (if _ then _ else _ : Parse (List String)) _ = _
                by_cases hTarget : (byte.toNat - 192) * 256 + low.toNat ≥ data.length
                · rw [if_pos hTarget, if_pos hTarget]
                  rfl
                · rw [if_neg hTarget, if_neg hTarget]
                  by_cases hVisited : (byte.toNat - 192) * 256 + low.toNat ∈ visited
                  · rw [if_pos hVisited, if_pos hVisited]
                    rfl
                  · rw [if_neg hVisited, if_neg hVisited]
        · rw [if_neg (fun h => hPointer ((pointer_bits byte).mp h)), if_neg hPointer]
          by_cases hBad : 64 ≤ byte.toNat
          · rw [if_pos ((label_bits byte).mpr hBad), if_pos hBad]
            rfl
          · rw [if_neg (fun h => hBad ((label_bits byte).mp h)), if_neg hBad, bind_apply]
            by_cases hFits : pos + 1 + byte.toNat ≤ data.length
            · rw [if_pos hFits, take_fits hFits]
              simp only [length_slice hFits]
            · rw [if_neg hFits, take_short (by omega) (by omega)]

/-! ## The decoder against the names -/

variable {depth : Nat} {visited : List Nat}

theorem nameTurn_root : nameTurn data pos depth visited = .root ↔ data[pos]? = some 0 := by
  unfold nameTurn
  cases hByte : data[pos]? with
  | none => simp
  | some byte =>
      simp only [Option.some.injEq]
      grind

theorem nameTurn_label {bytes : List Byte} :
    nameTurn data pos depth visited = .label bytes ↔
      ∃ len, data[pos]? = some len ∧ 1 ≤ len.toNat ∧ len.toNat ≤ 63 ∧
        pos + 1 + len.toNat ≤ data.length ∧ bytes = slice data (pos + 1) len.toNat := by
  unfold nameTurn
  cases hByte : data[pos]? with
  | none => simp
  | some byte =>
      have hZero : byte = 0 ↔ byte.toNat = 0 := by
        rw [← UInt8.toNat_inj]
        rfl
      simp only [Option.some.injEq]
      grind

theorem nameTurn_pointer {target : Nat} :
    nameTurn data pos depth visited = .pointer target ↔
      ∃ hi lo, data[pos]? = some hi ∧ 192 ≤ hi.toNat ∧ depth < maxPointerDepth ∧
        data[pos + 1]? = some lo ∧ target = (hi.toNat - 192) * 256 + lo.toNat ∧
        target < data.length ∧ target ∉ visited := by
  unfold nameTurn
  cases hByte : data[pos]? with
  | none => simp
  | some byte =>
      have hZero : byte = 0 → byte.toNat = 0 := by
        intro h
        rw [h]
        rfl
      simp only [Option.some.injEq]
      cases hLow : data[pos + 1]? with
      | none => grind
      | some low => grind

/-- Turns enough to go through the packet from here, and once more for each
pointer that may still be followed. -/
def EnoughTurns (data : List Byte) (turns depth pos : Nat) : Prop :=
  (maxPointerDepth - depth) * (data.length + 1) + (data.length - pos) < turns

theorem enoughTurns_start : EnoughTurns data (nameTurns data) 0 pos := by
  simp only [EnoughTurns, nameTurns, maxPointerDepth]
  omega

theorem EnoughTurns.label {turns next : Nat} (h : EnoughTurns data (turns + 1) depth pos)
    (hNext : pos < next) (hFits : next ≤ data.length) : EnoughTurns data turns depth next := by
  unfold EnoughTurns at h ⊢
  omega

theorem EnoughTurns.pointer {turns : Nat} (target : Nat)
    (h : EnoughTurns data (turns + 1) depth pos) (hDepth : depth < maxPointerDepth) :
    EnoughTurns data turns (depth + 1) target := by
  unfold EnoughTurns at h ⊢
  obtain ⟨left, hLeft⟩ : ∃ left, maxPointerDepth - depth = left + 1 :=
    ⟨maxPointerDepth - depth - 1, by omega⟩
  have hNow : maxPointerDepth - (depth + 1) = left := by omega
  rw [hLeft, Nat.succ_mul] at h
  rw [hNow]
  omega

/-- What the decoder gives is the name that is there. -/
theorem readNameInto_sound (turns : Nat) {labels out : List String} {q : Parser}
    (hVisited : visited.Nodup) (hDepth : depth ≤ maxPointerDepth)
    (hOut : readNameInto turns labels depth visited ⟨data, pos⟩ = .ok out q) :
    ∃ found targets, Resolves data pos found targets q.pos ∧ q.data = data ∧
      out = labels ++ found.map fromUtf8Lossy ∧ (visited ++ targets).Nodup ∧
      depth + targets.length ≤ maxPointerDepth := by
  induction turns generalizing labels depth visited pos q with
  | zero => cases hOut
  | succ turns ih =>
      rw [readNameInto_turn] at hOut
      cases hTurn : nameTurn data pos depth visited with
      | root =>
          rw [hTurn] at hOut
          cases hOut
          exact ⟨[], [], .root (nameTurn_root.mp hTurn), rfl, by simp, by simpa using hVisited,
            by simpa using hDepth⟩
      | label bytes =>
          rw [hTurn] at hOut
          obtain ⟨len, hByte, hSome, hShort, hFits, rfl⟩ := nameTurn_label.mp hTurn
          simp only [length_slice hFits] at hOut
          obtain ⟨found, targets, hRest, hData, hLabels, hNodup, hFew⟩ := ih hVisited hDepth hOut
          exact ⟨slice data (pos + 1) len.toNat :: found, targets,
            .label hByte hSome hShort hFits hRest, hData, by simp [hLabels], hNodup, hFew⟩
      | pointer target =>
          rw [hTurn] at hOut
          obtain ⟨hi, lo, hByte, hPointer, hDeeper, hLow, rfl, hTarget, hNew⟩ :=
            nameTurn_pointer.mp hTurn
          obtain ⟨rfl, q, hOut⟩ := readAt_ok.mp hOut
          have hMore : (visited ++ [(hi.toNat - 192) * 256 + lo.toNat]).Nodup := by
            simp [List.nodup_append, hVisited]
            exact fun a hMem hSame => hNew (hSame ▸ hMem)
          obtain ⟨found, targets, hRest, hData, hLabels, hNodup, hFew⟩ := ih hMore hDeeper hOut
          exact ⟨found, _ :: targets, .pointer hByte hPointer hLow hTarget hRest, rfl, hLabels,
            by simpa using hNodup, by simp only [List.length_cons]; omega⟩
      | refused error stop =>
          rw [hTurn] at hOut
          cases hOut

/-- The name that is there is what the decoder gives, if it follows few
enough pointers and none twice. -/
theorem readNameInto_complete {stop : Nat} {found : List (List Byte)} {targets : List Nat}
    (hName : Resolves data pos found targets stop) (turns : Nat) (labels : List String)
    (hTurns : EnoughTurns data turns depth pos) (hNodup : (visited ++ targets).Nodup)
    (hFew : depth + targets.length ≤ maxPointerDepth) :
    readNameInto turns labels depth visited ⟨data, pos⟩ =
      .ok (labels ++ found.map fromUtf8Lossy) ⟨data, stop⟩ := by
  induction hName generalizing turns labels depth visited with
  | root hByte =>
      obtain ⟨turns, rfl⟩ : ∃ more, turns = more + 1 := ⟨turns - 1, by
        unfold EnoughTurns at hTurns
        omega⟩
      rw [readNameInto_turn, nameTurn_root.mpr hByte]
      simp
  | label hByte hSome hShort hFits hRest ih =>
      obtain ⟨turns, rfl⟩ : ∃ more, turns = more + 1 := ⟨turns - 1, by
        unfold EnoughTurns at hTurns
        omega⟩
      rw [readNameInto_turn, nameTurn_label.mpr ⟨_, hByte, hSome, hShort, hFits, rfl⟩]
      simp only [length_slice hFits]
      rw [ih turns _ (hTurns.label (by omega) hFits) hNodup hFew]
      simp
  | pointer hByte hPointer hLow hTarget hRest ih =>
      obtain ⟨turns, rfl⟩ : ∃ more, turns = more + 1 := ⟨turns - 1, by
        unfold EnoughTurns at hTurns
        omega⟩
      simp only [List.length_cons] at hFew
      have hNew := (List.nodup_append.mp hNodup).2.2
      rw [readNameInto_turn, nameTurn_pointer.mpr ⟨_, _, hByte, hPointer, by omega, hLow, rfl,
        hTarget, fun hMem => hNew _ hMem _ (by simp) rfl⟩]
      refine readAt_ok.mpr ⟨rfl, _, ih turns labels (hTurns.pointer _ (by omega)) ?_ (by omega)⟩
      simpa using hNodup

/-- Whatever is not given is refused with one of the packet's errors: no read
is out of bounds, and the decoder comes to an end. -/
theorem readNameInto_refuses (turns : Nat) {labels : List String} {failure : Failure} {q : Parser}
    (hTurns : EnoughTurns data turns depth pos)
    (hOut : readNameInto turns labels depth visited ⟨data, pos⟩ = .error failure q) :
    ∃ error, failure = .dns error := by
  induction turns generalizing labels depth visited pos q with
  | zero =>
      unfold EnoughTurns at hTurns
      omega
  | succ turns ih =>
      rw [readNameInto_turn] at hOut
      cases hTurn : nameTurn data pos depth visited with
      | root =>
          rw [hTurn] at hOut
          cases hOut
      | label bytes =>
          rw [hTurn] at hOut
          obtain ⟨len, hByte, hSome, hShort, hFits, rfl⟩ := nameTurn_label.mp hTurn
          simp only [length_slice hFits] at hOut
          exact ih (hTurns.label (by omega) hFits) hOut
      | pointer target =>
          rw [hTurn] at hOut
          obtain ⟨hi, lo, hByte, hPointer, hDeeper, hLow, rfl, hTarget, hNew⟩ :=
            nameTurn_pointer.mp hTurn
          obtain ⟨rfl, q, hOut⟩ := readAt_error.mp hOut
          exact ih (hTurns.pointer _ hDeeper) hOut
      | refused error stop =>
          rw [hTurn] at hOut
          cases hOut
          exact ⟨error, rfl⟩

theorem readName_ok_iff {name : String} {q : Parser} :
    readName ⟨data, pos⟩ = .ok name q ↔
      q.data = data ∧ ∃ labels targets, Resolves data pos labels targets q.pos ∧
        targets.Nodup ∧ targets.length ≤ maxPointerDepth ∧
        name = ".".intercalate (labels.map fromUtf8Lossy) := by
  unfold readName
  rw [bind_ok]
  constructor
  · rintro ⟨_, _, hGet, hOut⟩
    cases hGet
    obtain ⟨labels, q', hOut, hName⟩ := bind_ok.mp hOut
    cases hName
    obtain ⟨found, targets, hFound, hData, rfl, hNodup, hFew⟩ :=
      readNameInto_sound _ List.nodup_nil (Nat.zero_le _) hOut
    exact ⟨hData, found, targets, hFound, hNodup, by simpa using hFew, by simp⟩
  · rintro ⟨rfl, labels, targets, hFound, hNodup, hFew, rfl⟩
    refine ⟨_, _, rfl, bind_ok.mpr ⟨labels.map fromUtf8Lossy, q, ?_, rfl⟩⟩
    have hOut : readNameInto (nameTurns q.data) [] 0 [] ⟨q.data, pos⟩ =
        .ok ([] ++ labels.map fromUtf8Lossy) ⟨q.data, q.pos⟩ :=
      readNameInto_complete hFound (nameTurns q.data) [] enoughTurns_start hNodup
        (by simpa using hFew)
    simpa using hOut

theorem readName_refuses {failure : Failure} {q : Parser}
    (hOut : readName ⟨data, pos⟩ = .error failure q) : ∃ error, failure = .dns error := by
  unfold readName at hOut
  rcases bind_error.mp hOut with hGet | ⟨_, _, hGet, hOut⟩
  · cases hGet
  · cases hGet
    rcases bind_error.mp hOut with hOut | ⟨labels, q', hOut, hName⟩
    · exact readNameInto_refuses _ enoughTurns_start hOut
    · cases hName

/-- **Name decoding.**  From any offset of any packet a name is returned
exactly if labels are there that reach a zero byte over no more pointers than
allowed and no target twice, and it is those labels, with the cursor behind
the first pointer or the zero byte.  Anything else is an error of the packet,
and no read moves the cursor out of it. -/
theorem name_decoding (data : List Byte) (start : Nat) :
    (∀ name q, readName ⟨data, start⟩ = .ok name q ↔
      q.data = data ∧ ∃ labels targets, Resolves data start labels targets q.pos ∧
        targets.Nodup ∧ targets.length ≤ maxPointerDepth ∧
        name = ".".intercalate (labels.map fromUtf8Lossy)) ∧
    (∀ failure q, readName ⟨data, start⟩ = .error failure q → ∃ error, failure = .dns error) ∧
    StaysInPacket readU8 ∧ (∀ len, StaysInPacket (take len)) ∧ StaysInPacket readName :=
  ⟨fun _ _ => readName_ok_iff, fun _ _ => readName_refuses, readU8_inPacket, take_inPacket,
    readName_inPacket⟩

end CastApp.Cast.Dns
