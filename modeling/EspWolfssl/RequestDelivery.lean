import EspWolfssl.BackendSteps
import EspWolfssl.CreationFootprints
import EspWolfssl.HttpsRequest
import EspWolfssl.IoOutcomes
import EspWolfssl.WordLengths

/-!
What the request example sends and prints, however the transfers come in pieces.
The peer gets the request from its start on, each byte once; a response is read
behind the whole request only; and every byte that was read is printed once.
-/
namespace EspWolfssl.RequestDelivery

open ByteRegions Platform ProgramLogic BackendState HandleCreation ConnectionIo GlobalStore
  Transfers HttpsRequest BackendSteps OperationFrames CreationFootprints IoOutcomes WordLengths

variable {b : Build} {lib : EspTls b}

section Loops
variable {h : Handle} {P : AppState b → Prop} {E : Exit → AppState b → Prop}

end Loops

section Calls
variable (h : Handle) (t : Transfer) (s : AppState b)

theorem convert_nonpos (err : Int32) : espTlsConvertWolfsslErrToSsize b.codes err ≤ 0 := by
  by_cases herr : err = 0
  · have hnot : ¬ Retry b.codes err := by
      rintro (heq | heq)
      · exact b.codes.none_ne.1 (heq.symm.trans herr)
      · exact b.codes.none_ne.2.1 (heq.symm.trans herr)
    rw [convert_other b.codes hnot]
    grind
  · have hneg := (convert_neg_iff b.codes err).mpr herr
    grind

/-- A count that is returned is the number of bytes that the peer got. -/
def Counted (ret : Int32) (moved : List UInt8) : Prop :=
  ret < 0 ∧ moved = [] ∨ 0 ≤ ret ∧ ret.toInt = moved.length

theorem counted_of_nonpos {ret : Int32} (hret : ret ≤ 0) : Counted ret [] := by
  by_cases hneg : ret < 0
  · exact Or.inl ⟨hneg, rfl⟩
  · have hzero : ret = 0 := by grind
    subst hzero
    exact Or.inr ⟨by decide, by decide⟩

theorem write_counted (data : List UInt8) (datalen : UInt32) (w : World b) :
    ∃ ret w', espWolfsslWrite h datalen (t.answer data datalen.toInt32) w = (.ok ret, w') ∧
      Counted ret (t.moved data datalen.toInt32) := by
  by_cases hnil : t.moved data datalen.toInt32 = []
  · rw [hnil, answer_of_nil t data _ hnil]
    obtain ⟨w', hrun, _⟩ := write_failure h datalen ⟨t.ret, t.err⟩ w t.failed
    exact ⟨_, w', hrun, counted_of_nonpos (convert_nonpos t.err)⟩
  · obtain ⟨hpos, hret⟩ := answer_of_moved t data _ hnil
    obtain ⟨w', hrun, _⟩ := write_success h datalen _ w hpos
    exact ⟨_, w', hrun, Or.inr ⟨by grind, hret⟩⟩

theorem read_counted (incoming : List UInt8) (datalen : UInt32) (w : World b) :
    ∃ ret w', espWolfsslRead h datalen (t.answer incoming datalen.toInt32) w = (.ok ret, w') ∧
      Counted ret (t.moved incoming datalen.toInt32) := by
  by_cases hnil : t.moved incoming datalen.toInt32 = []
  · rw [hnil, answer_of_nil t incoming _ hnil]
    by_cases hneg : t.ret < 0
    · by_cases hclosed : t.err = b.codes.zeroReturn
      · obtain ⟨w', hrun, _⟩ := read_closed h datalen ⟨t.ret, t.err⟩ w hneg hclosed
        exact ⟨_, w', hrun, counted_of_nonpos (by decide)⟩
      · obtain ⟨w', hrun, _⟩ := read_failure h datalen ⟨t.ret, t.err⟩ w hneg hclosed
        exact ⟨_, w', hrun, counted_of_nonpos (convert_nonpos t.err)⟩
    · obtain ⟨w', hrun, _⟩ := read_success h datalen ⟨t.ret, t.err⟩ w (by grind)
      exact ⟨_, w', hrun, counted_of_nonpos t.failed⟩
  · obtain ⟨hpos, hret⟩ := answer_of_moved t incoming _ hnil
    have hnonneg : 0 ≤ (t.answer incoming datalen.toInt32).ret := by grind
    obtain ⟨w', hrun, _⟩ := read_success h datalen _ w hnonneg
    exact ⟨_, w', hrun, Or.inr ⟨hnonneg, hret⟩⟩

theorem onBackend_ok {α : Type} {m : Backend b α} {a : α} {w : World b}
    (hm : m s.world = (.ok a, w)) : onBackend m s = (.ok a, { s with world := w }) := by
  simp only [onBackend, hm]

theorem espTlsConnWrite_cases (hlib : lib.HandsOn) (data : List UInt8) (datalen : UInt32) :
    ∃ ret w, espTlsConnWrite lib h data datalen t s =
        (.ok ret, { s with world := w, sent := s.sent ++ t.moved data datalen.toInt32 }) ∧
      Counted ret (t.moved data datalen.toInt32) := by
  obtain ⟨ret, w, hrun, hcount⟩ := write_counted h t data datalen s.world
  rw [← hlib.connWrite] at hrun
  refine ⟨ret, w, ?_, hcount⟩
  simp only [espTlsConnWrite, Prog.bind_of_ok (onBackend_ok s hrun), Prog.bind_apply,
    Prog.modify_apply, Prog.pure_apply]

theorem espTlsConnRead_cases (hlib : lib.HandsOn) (buf : List UInt8) (datalen : UInt32) :
    ∃ ret w, espTlsConnRead lib h buf datalen t s =
        (.ok (t.moved s.incoming datalen.toInt32 ++
          buf.drop (t.moved s.incoming datalen.toInt32).length, ret),
          { s with
            world := w
            incoming := s.incoming.drop (t.moved s.incoming datalen.toInt32).length }) ∧
      Counted ret (t.moved s.incoming datalen.toInt32) := by
  obtain ⟨ret, w, hrun, hcount⟩ := read_counted h t s.incoming datalen s.world
  rw [← hlib.connRead] at hrun
  refine ⟨ret, w, ?_, hcount⟩
  have hback := onBackend_ok s hrun
  simp only [espTlsConnRead, Prog.bind_apply, Prog.read_apply, hback, Prog.modify_apply,
    Prog.pure_apply]

end Calls

section Writing
variable {h : Handle} {request : CString} {s₀ : AppState b}

/-- Since `s₀` the peer got the first `k` bytes of the request, and nothing else
happened but in the backend. -/
def Sending (s₀ : AppState b) (request : CString) (k : ℕ) (s : AppState b) : Prop :=
  s = { s₀ with world := s.world, sent := s₀.sent ++ request.chars.take k }

theorem requestLen_toNat (hlen : request.length < 2 ^ 31) :
    (requestLen request).toNat = request.length :=
  ofNat_toNat (by omega)

/-- The size of a write is the length of what is left. -/
theorem remaining_size {written : UInt32} (hlen : request.length < 2 ^ 31)
    (hwritten : written.toNat ≤ request.length) :
    (requestLen request - written).toInt32.toNatClampNeg = request.length - written.toNat := by
  have htotal := requestLen_toNat hlen
  have hle : written ≤ requestLen request := by
    rw [UInt32.le_iff_toNat_le, htotal]
    exact hwritten
  have hleft : (requestLen request - written).toNat = request.length - written.toNat := by
    rw [UInt32.toNat_sub_of_le _ _ hle, htotal]
  have hexact := (toInt32_exact_iff (requestLen request - written)).mpr (by omega)
  rw [Int32.toNatClampNeg, hexact, hleft]
  omega

/-- What a write moves is the next piece of the request. -/
theorem take_moved {written : UInt32} (hlen : request.length < 2 ^ 31)
    (hwritten : written.toNat ≤ request.length) (t : Transfer) :
    let moved := t.moved (request.bytes.drop written.toNat) (requestLen request - written).toInt32
    written.toNat + moved.length ≤ request.length ∧
      request.chars.take written.toNat ++ moved =
        request.chars.take (written.toNat + moved.length) := by
  intro moved
  have hbound : moved.length ≤ request.length - written.toNat := by
    rw [← remaining_size hlen hwritten]
    exact moved_length_le t _ _
  have hfit : written.toNat + moved.length ≤ request.length := by omega
  refine ⟨hfit, ?_⟩
  have hstarts : moved = (request.bytes.drop written.toNat).take moved.length :=
    List.prefix_iff_eq_take.mp (moved_starts t _ _)
  have hpiece : moved = (request.chars.drop written.toNat).take moved.length := by
    rw [CString.length] at hfit hwritten
    conv_lhs => rw [hstarts, CString.bytes, List.drop_append_of_le_length hwritten]
    rw [List.take_append_of_le_length]
    rw [List.length_drop]
    omega
  rw [List.take_add, ← hpiece]

/-- Behind a write that goes on the peer got the request up to `written_bytes`. -/
theorem afterWrite_counts {written next : UInt32} {ret : Int32} {moved : List UInt8}
    (hcount : Counted ret moved) (hsum : written.toNat + moved.length < 2 ^ 31)
    (hnext : afterWrite b.codes written ret = some next) :
    next.toNat = written.toNat + moved.length := by
  unfold afterWrite at hnext
  rcases hcount with ⟨hneg, hnil⟩ | ⟨hnonneg, hret⟩
  · have hnot : ¬ 0 ≤ ret := by grind
    rw [if_neg hnot] at hnext
    split at hnext
    · cases hnext
    · cases hnext
      rw [hnil]
      rfl
  · rw [if_pos hnonneg] at hnext
    cases hnext
    have hword : ret.toUInt32.toNat = moved.length := by
      rw [Int32.toNat_toUInt32_of_le hnonneg, Int32.toNatClampNeg, hret]
      omega
    rw [UInt32.toNat_add, hword]
    omega

theorem writeLoop_sends (hlib : lib.HandsOn) (hlen : request.length < 2 ^ 31) (written : UInt32)
    (hwritten : written.toNat ≤ request.length) (transfers : List Transfer) :
    Prog.Triple (Sending s₀ request written.toNat)
      (writeLoop lib h request written transfers : App b Bool)
      (fun ok s => ∃ k ≤ request.length, Sending s₀ request k s ∧ (ok = true → k = request.length))
      (fun _ s => ∃ k ≤ request.length, Sending s₀ request k s) := by
  induction transfers generalizing written with
  | nil => exact fun s hs => ⟨_, hwritten, hs⟩
  | cons t rest ih =>
    intro s hs
    obtain ⟨ret, w, hrun, hcount⟩ := espTlsConnWrite_cases h t s hlib
      (request.bytes.drop written.toNat) (requestLen request - written)
    obtain ⟨hfit, htake⟩ := take_moved hlen hwritten t
    generalize t.moved (request.bytes.drop written.toNat) (requestLen request - written).toInt32 =
      moved at hrun hcount hfit htake
    have hsent : Sending s₀ request (written.toNat + moved.length)
        { s with world := w, sent := s.sent ++ moved } := by
      unfold Sending at hs ⊢
      rw [hs]
      simp only [List.append_assoc, htake]
    rw [writeLoop, Prog.bind_of_ok hrun]
    cases hafter : afterWrite b.codes written ret with
    | none => exact ⟨_, hfit, hsent, by simp⟩
    | some next =>
      have hnext := afterWrite_counts hcount (by omega) hafter
      rw [← hnext] at hsent hfit
      dsimp only
      split
      · exact ih _ hfit _ hsent
      · rename_i hdone
        refine ⟨_, hfit, hsent, fun _ => ?_⟩
        rw [UInt32.lt_iff_toNat_lt, requestLen_toNat hlen] at hdone
        omega

/-- While something is left, a transfer that can move bytes does. -/
theorem moved_ne_nil {written : UInt32} (hlen : request.length < 2 ^ 31)
    (hleft : written.toNat < request.length) {t : Transfer} (hcount : 0 < t.count) :
    t.moved (request.bytes.drop written.toNat) (requestLen request - written).toInt32 ≠ [] := by
  have hbytes : request.bytes.length = request.length + 1 := by
    simp [CString.bytes, CString.length]
  rw [← List.length_pos_iff, Transfer.moved, List.length_take, List.length_drop,
    remaining_size hlen hleft.le, hbytes]
  omega

/-- As many transfers as the request has bytes are enough, if each moves one. -/
theorem writeLoop_completes (hlib : lib.HandsOn) (hlen : request.length < 2 ^ 31) (written : UInt32)
    (hleft : written.toNat < request.length) {transfers : List Transfer}
    (hcounts : ∀ t ∈ transfers, 0 < t.count)
    (henough : request.length - written.toNat ≤ transfers.length) (s : AppState b) :
    ∃ s', writeLoop lib h request written transfers s = (.ok true, s') := by
  induction transfers generalizing written s with
  | nil =>
    simp only [List.length_nil] at henough
    omega
  | cons t rest ih =>
    obtain ⟨ret, w, hrun, hcount⟩ := espTlsConnWrite_cases h t s hlib
      (request.bytes.drop written.toNat) (requestLen request - written)
    obtain ⟨hfit, _⟩ := take_moved hlen hleft.le t
    have hmoved := moved_ne_nil hlen hleft (hcounts t List.mem_cons_self)
    generalize t.moved (request.bytes.drop written.toNat) (requestLen request - written).toInt32 =
      moved at hrun hcount hfit hmoved
    obtain ⟨hnonneg, _⟩ : 0 ≤ ret ∧ ret.toInt = moved.length :=
      hcount.resolve_left fun hfail => hmoved hfail.2
    have hafter : afterWrite b.codes written ret = some (written + ret.toUInt32) :=
      if_pos hnonneg
    have hnext := afterWrite_counts hcount (by omega) hafter
    have hpos := List.length_pos_iff.mpr hmoved
    rw [writeLoop, Prog.bind_of_ok hrun, hafter]
    dsimp only
    split
    · rename_i hmore
      rw [UInt32.lt_iff_toNat_lt, requestLen_toNat hlen] at hmore
      simp only [List.length_cons] at henough
      exact ih _ hmore (fun t' ht' => hcounts t' (List.mem_cons_of_mem t ht')) (by omega) _
    · exact ⟨_, rfl⟩

end Writing

section Reading
variable {h : Handle} {s₀ : AppState b}

/-- Pieces as they are printed, each with a newline behind it. -/
def lines (pieces : List (List UInt8)) : List UInt8 := pieces.flatMap (· ++ [newline])

/-- Since `s₀` the pieces were read and printed, and nothing else happened but in
the backend. -/
structure Printing (s₀ : AppState b) (pieces : List (List UInt8)) (s : AppState b) : Prop where
  frame : s = { s₀ with
    world := s.world, incoming := s.incoming, printed := s₀.printed ++ lines pieces }
  arrived : s₀.incoming = pieces.flatten ++ s.incoming
  sized : ∀ piece ∈ pieces, piece ≠ [] ∧ piece.length < bufSize

/-- What a read moves is in front of what is still to come, and fits the buffer. -/
theorem moved_fits (t : Transfer) (incoming : List UInt8) :
    let moved := t.moved incoming (UInt32.ofNat (bufSize - 1)).toInt32
    moved ++ incoming.drop moved.length = incoming ∧ moved.length < bufSize := by
  intro moved
  have hsize : moved.length ≤ bufSize - 1 := moved_length_le t incoming _
  refine ⟨?_, by simp only [bufSize] at hsize ⊢; omega⟩
  have hfront : ∀ front, front <+: incoming → front ++ incoming.drop front.length = incoming := by
    rintro front ⟨rest, rfl⟩
    rw [List.drop_left]
  exact hfront moved (moved_starts t _ _)

/-- A read that moved nothing leaves everything as it was printed. -/
theorem printing_idle {pieces : List (List UInt8)} {s : AppState b} (hs : Printing s₀ pieces s)
    (w : World b) : Printing s₀ pieces { s with world := w, incoming := s.incoming.drop 0 } where
  frame := by rw [hs.frame]
  arrived := hs.arrived
  sized := hs.sized

theorem printing_piece {pieces : List (List UInt8)} {moved : List UInt8} {s : AppState b}
    (hs : Printing s₀ pieces s) (hmoved : moved ≠ []) (hfit : moved.length < bufSize)
    (hsplit : moved ++ s.incoming.drop moved.length = s.incoming) (w : World b) :
    Printing s₀ (pieces ++ [moved])
      { s with
        world := w
        incoming := s.incoming.drop moved.length
        printed := s.printed ++ moved ++ [newline] } where
  frame := by
    rw [hs.frame]
    simp [lines]
  arrived := by
    rw [hs.arrived, ← hsplit]
    simp
  sized := by
    intro piece hpiece
    rcases List.mem_append.mp hpiece with hbefore | hlast
    · exact hs.sized piece hbefore
    · obtain rfl := List.mem_singleton.mp hlast
      exact ⟨hmoved, hfit⟩

theorem readLoop_prints (hlib : lib.HandsOn) (transfers : List Transfer)
    (pieces : List (List UInt8)) :
    Prog.Triple (Printing s₀ pieces) (readLoop lib h transfers : App b Unit)
      (fun _ s => ∃ more, Printing s₀ more s) (fun _ s => ∃ more, Printing s₀ more s) := by
  induction transfers generalizing pieces with
  | nil => exact fun s hs => ⟨pieces, hs⟩
  | cons t rest ih =>
    intro s hs
    obtain ⟨ret, w, hrun, hcount⟩ := espTlsConnRead_cases h t s hlib
      (List.replicate bufSize 0) (UInt32.ofNat (bufSize - 1))
    obtain ⟨hsplit, hfit⟩ := moved_fits t s.incoming
    generalize t.moved s.incoming (UInt32.ofNat (bufSize - 1)).toInt32 = moved
      at hrun hcount hsplit hfit
    rw [readLoop, Prog.bind_of_ok hrun]
    dsimp only
    have hread := b.codes.espWantRead_neg
    have hwrite := b.codes.espWantWrite_neg
    rcases hcount with ⟨hneg, hnil⟩ | ⟨hnonneg, hret⟩
    · subst hnil
      have hidle := printing_idle hs w
      split
      · exact ih pieces _ hidle
      · exact ⟨pieces, hidle⟩
    · have hnot : ¬ (ret = b.codes.espWantWrite ∨ ret = b.codes.espWantRead) := by grind
      have hnotneg : ¬ ret < 0 := by grind
      rw [if_neg hnot, if_neg hnotneg]
      split
      · rename_i hzero
        have hnil : moved = [] := by
          rw [hzero, Int32.toInt_zero] at hret
          exact List.length_eq_zero_iff.mp (by omega)
        subst hnil
        exact ⟨pieces, printing_idle hs w⟩
      · rename_i hnonzero
        have hmoved : moved ≠ [] := by
          rintro rfl
          exact hnonzero (Int32.toInt_inj.mp hret)
        have htake : (moved ++ (List.replicate bufSize 0).drop moved.length).take
            ret.toNatClampNeg = moved := by
          have hcount : ret.toNatClampNeg = moved.length := by
            rw [Int32.toNatClampNeg, hret]
            omega
          rw [hcount, List.take_left]
        simp only [putchars, htake, Prog.bind_apply, Prog.modify_apply]
        exact ih (pieces ++ [moved]) _ (printing_piece hs hmoved hfit hsplit w)

end Reading

section Request
variable {request : CString} {s₀ : AppState b}

/-- Since `s₀` the peer got the first `k` bytes of the request, and the pieces were
read and printed. -/
structure Exchanged (s₀ : AppState b) (request : CString) (k : ℕ) (pieces : List (List UInt8))
    (s : AppState b) : Prop where
  within : k ≤ request.length
  sent : s.sent = s₀.sent ++ request.chars.take k
  printed : s.printed = s₀.printed ++ lines pieces
  arrived : s₀.incoming = pieces.flatten ++ s.incoming
  sized : ∀ piece ∈ pieces, piece ≠ [] ∧ piece.length < bufSize
  whole : pieces ≠ [] → k = request.length

def Delivered (s₀ : AppState b) (request : CString) (s : AppState b) : Prop :=
  ∃ k pieces, Exchanged s₀ request k pieces s

/-- The two ends of the stream and stdout. -/
def streams (s : AppState b) : List UInt8 × List UInt8 × List UInt8 :=
  (s.sent, s.incoming, s.printed)

theorem Delivered.congr {s s' : AppState b} (hs : Delivered s₀ request s)
    (hsame : streams s' = streams s) : Delivered s₀ request s' := by
  obtain ⟨k, pieces, h⟩ := hs
  simp only [streams, Prod.mk.injEq] at hsame
  obtain ⟨hsent, hincoming, hprinted⟩ := hsame
  exact ⟨k, pieces, h.within, hsent.trans h.sent, hprinted.trans h.printed,
    hincoming ▸ h.arrived, h.sized, h.whole⟩

theorem delivered_refl (s₀ : AppState b) : Delivered s₀ request s₀ :=
  ⟨0, [], Nat.zero_le _, by simp, by simp [lines], by simp, by simp, by simp⟩

theorem onBackend_streams {α : Type} (m : Backend b α) : Prog.Keeps streams (onBackend m) :=
  .of_apply fun _ => rfl

theorem logSession_streams (c : SessionCall) :
    Prog.Keeps streams (logSession c : App b Unit) :=
  .modify fun _ => rfl

theorem saveSession_streams (tickets : Bool) (getSession : Option ℕ) :
    Prog.Keeps streams (saveSession tickets getSession : App b Unit) := by
  have hget : Prog.Keeps streams (espTlsGetClientSession getSession : App b (Option ℕ)) :=
    (logSession_streams _).bind fun _ => .pure _
  have hset : ∀ session, Prog.Keeps streams (setTlsClientSession session : App b Unit) :=
    fun _ => .modify fun _ => rfl
  refine (Prog.Keeps.read _).bind fun _ => .ite ?_ (.pure ())
  exact (Prog.Keeps.read _).bind fun _ => (logSession_streams _).bind fun _ =>
    hget.bind fun _ => hset _

/-- Reading begins behind a request that was written as a whole. -/
theorem exchange_delivers (hlib : lib.HandsOn) (hlen : request.length < 2 ^ 31) (tickets : Bool)
    (h : Handle) (ans : RequestAnswers b) :
    Prog.Triple (fun s => streams s = streams s₀) (exchange lib tickets h request ans)
      (fun _ => Delivered s₀ request) (fun _ => Delivered s₀ request) := by
  intro s₁ hs₁
  have hstart : Sending s₁ request 0 s₁ := by simp [Sending]
  have hbefore : ∀ {k s}, k ≤ request.length → Sending s₁ request k s →
      Exchanged s₀ request k [] s := by
    intro k s hk hs
    simp only [streams, Prod.mk.injEq] at hs₁
    unfold Sending at hs
    rw [hs]
    exact ⟨hk, by simp [hs₁], by simp [hs₁, lines], by simp [hs₁], by simp, by simp⟩
  have hwrite := writeLoop_sends (h := h) hlib hlen 0 (Nat.zero_le _) ans.writes s₁ hstart
  unfold exchange
  rcases hrun : writeLoop lib h request 0 ans.writes s₁ with ⟨r, s₂⟩
  rw [hrun] at hwrite
  cases r with
  | error e =>
    obtain ⟨k, hk, hs₂⟩ := hwrite
    rw [Prog.bind_of_error hrun]
    exact ⟨k, [], hbefore hk hs₂⟩
  | ok written =>
    obtain ⟨k, hk, hs₂, hdone⟩ := hwrite
    rw [Prog.bind_of_ok hrun]
    have hall := hbefore hk hs₂
    cases written with
    | false => exact ⟨k, [], hall⟩
    | true =>
      have hread : Prog.Triple (Printing s₂ []) (readLoop lib h ans.reads : App b Unit)
          (fun _ => Delivered s₀ request) (fun _ => Delivered s₀ request) := by
        refine (readLoop_prints hlib ans.reads []).conseq (fun _ hs => hs) ?_ ?_
        all_goals
          rintro _ s ⟨pieces, hs⟩
          refine ⟨k, pieces, hk, ?_, ?_, ?_, hs.sized, fun _ => hdone rfl⟩
          · rw [hs.frame]
            exact hall.sent
          · rw [hs.frame, hall.printed]
            simp [lines]
          · rw [← hs.arrived]
            simpa using hall.arrived
      have hsave : Prog.Preserves (Delivered s₀ request)
          (saveSession tickets ans.getSession : App b Unit) :=
        (saveSession_streams tickets ans.getSession).preserves_congr fun _ _ hsame hs =>
          hs.congr hsame
      exact (hread.bind fun _ => hsave) s₂ ⟨by simp [lines], by simp, by simp⟩

/-- Whichever way the loop ends. -/
theorem readLoop_frame (hlib : lib.HandsOn) (h : Handle) (transfers : List Transfer)
    (s : AppState b) :
    ∃ pieces, Printing s pieces ((readLoop lib h transfers : App b Unit) s).2 := by
  have hstart : Printing s [] s := ⟨by simp [lines], by simp, by simp⟩
  have hread := readLoop_prints (h := h) hlib transfers [] s hstart
  rcases hrun : (readLoop lib h transfers : App b Unit) s with ⟨r, s'⟩
  rw [hrun] at hread
  cases r <;> exact hread

theorem readLoop_sent (hlib : lib.HandsOn) (h : Handle) (transfers : List Transfer) :
    Prog.Keeps (·.sent) (readLoop lib h transfers : App b Unit) := by
  refine .of_apply fun s => ?_
  obtain ⟨pieces, hs⟩ := readLoop_frame hlib h transfers s
  have hsent := congrArg AppState.sent hs.frame
  exact hsent

/-- Transfers that move bytes, enough of them, write the whole request. -/
theorem exchange_completes (hlib : lib.HandsOn) (hlen : request.length < 2 ^ 31)
    (hpos : 0 < request.length) (tickets : Bool) (h : Handle) {ans : RequestAnswers b}
    (hcounts : ∀ t ∈ ans.writes, 0 < t.count)
    (henough : request.length ≤ ans.writes.length) (s : AppState b) :
    (exchange lib tickets h request ans s).2.sent = s.sent ++ request.chars := by
  obtain ⟨s', hwrite⟩ := writeLoop_completes (h := h) hlib hlen 0 hpos hcounts henough s
  have hstart : Sending s request 0 s := by simp [Sending]
  have hsends := writeLoop_sends (h := h) hlib hlen 0 (Nat.zero_le _) ans.writes s hstart
  rw [hwrite] at hsends
  obtain ⟨k, _, hsent, hall⟩ := hsends
  have htail : Prog.Keeps (·.sent) (do
      readLoop lib h ans.reads
      saveSession tickets ans.getSession : App b Unit) :=
    (readLoop_sent hlib h ans.reads).bind fun _ => (saveSession_streams tickets _).map Prod.fst
  unfold exchange
  rw [Prog.bind_of_ok hwrite]
  refine (htail.apply s').trans ?_
  rw [hsent, hall rfl]
  simp [CString.length]

/-- The backend behind `esp_tls_init`. -/
def initialized (h : Handle) (s : AppState b) : World b := s.world.updateTls h fun _ => Tls.fresh

theorem httpsGetRequest_delivers (hlib : lib.HandsOn) (hlen : request.length < 2 ^ 31)
    (tickets : Bool) (cfg : EspTlsCfg) (ans : RequestAnswers b) :
    Prog.Triple (fun s => streams s = streams s₀) (httpsGetRequest lib tickets cfg request ans)
      (fun _ => Delivered s₀ request) (fun _ => Delivered s₀ request) := by
  have hidle : ∀ s : AppState b, streams s = streams s₀ → Delivered s₀ request s :=
    fun s hs => (delivered_refl s₀).congr hs
  unfold httpsGetRequest
  cases ans.tls with
  | none => exact .pure hidle
  | some h =>
    have hinit := (onBackend_streams (lib.init h)) (streams s₀)
    have hsync : Prog.Keeps streams (espTlsConnHttpNewSync cfg h ans.newSync : App b Int32) :=
      (logSession_streams _).bind fun _ => onBackend_streams _
    have hdestroy : Prog.Preserves (Delivered s₀ request) (onBackend (lib.connDestroy h)) :=
      (onBackend_streams _).preserves_congr fun _ _ hsame hs => hs.congr hsame
    refine Prog.Triple.bind (hinit.conseq (fun _ hs => hs) (fun _ _ hs => hs)
      fun _ => hidle) fun _ => ?_
    refine Prog.Triple.bind ((hsync (streams s₀)).conseq (fun _ hs => hs) (fun _ _ hs => hs)
      fun _ => hidle) fun ret => ?_
    refine Prog.Triple.bind (Q := fun _ => Delivered s₀ request) ?_ fun _ => hdestroy
    split
    · exact exchange_delivers hlib hlen tickets h ans
    · exact .pure hidle

/-- The last thing that a request does is to delete its connection. -/
theorem httpsGetRequest_clears (hlib : lib.HandsOn) (tickets : Bool) (cfg : EspTlsCfg)
    {ans : RequestAnswers b} {h : Handle} (htls : ans.tls = some h) {s s' : AppState b} {u : Unit}
    (hrun : httpsGetRequest lib tickets cfg request ans s = (.ok u, s')) :
    objects s'.world h = (none, none) := by
  simp only [httpsGetRequest, htls] at hrun
  obtain ⟨_, s₁, _, hrun⟩ := Prog.bind_ok_iff.mp hrun
  obtain ⟨ret, s₂, _, hrun⟩ := Prog.bind_ok_iff.mp hrun
  obtain ⟨_, s₃, _, hrun⟩ := Prog.bind_ok_iff.mp hrun
  rw [hlib.connDestroy] at hrun
  cases hrun
  exact espWolfsslCleanup_cleared h s₃.world

theorem httpsGetRequest_completes (hlib : lib.HandsOn) (hlen : request.length < 2 ^ 31)
    (hpos : 0 < request.length) (tickets : Bool) {cfg : EspTlsCfg} {ans : RequestAnswers b}
    {h : Handle} {w : World b}
    (htls : ans.tls = some h) (s : AppState b)
    (hsync : ans.newSync cfg h (initialized h s) = (.ok 1, w))
    (hcounts : ∀ t ∈ ans.writes, 0 < t.count) (henough : request.length ≤ ans.writes.length) :
    (httpsGetRequest lib tickets cfg request ans s).2.sent = s.sent ++ request.chars := by
  have hdestroy : Prog.Keeps (·.sent) (onBackend (lib.connDestroy h)) :=
    (onBackend_streams _).map Prod.fst
  have hopen : ∃ s', s'.sent = s.sent ∧
      (onBackend (lib.init h) >>= fun _ => espTlsConnHttpNewSync cfg h ans.newSync) s =
        (.ok 1, s') := by
    refine ⟨{ s with
      world := w
      sessionLog := s.sessionLog ++ [((), .use cfg.clientSession)] }, rfl, ?_⟩
    have hback := onBackend_ok { s with
      world := initialized h s
      sessionLog := s.sessionLog ++ [((), .use cfg.clientSession)] } hsync
    rw [hlib.init]
    exact hback
  obtain ⟨s', hsame, hopen⟩ := hopen
  simp only [httpsGetRequest, htls]
  rw [← Prog.bind_assoc, Prog.bind_of_ok hopen]
  refine (Prog.Keeps.after (fun _ => hdestroy) s').trans ?_
  rw [if_pos rfl, exchange_completes hlib hlen hpos tickets h hcounts henough, hsame]

/-- In every run of one request, over an esp-tls that hands its calls on and whatever
pieces its transfers come in: the peer gets a prefix of the request, and all of it
before anything is read; the bytes that were read are printed once, in order, piece by
piece; a request that returns leaves its handle without objects; and a connection whose
writes move bytes, as many as the request has, sends all of it. -/
theorem request_delivered (hlib : lib.HandsOn) (hlen : request.length < 2 ^ 31) (tickets : Bool)
    (cfg : EspTlsCfg) (ans : RequestAnswers b) {s₀ s : AppState b} {r : Except Exit Unit}
    (hrun : httpsGetRequest lib tickets cfg request ans s₀ = (r, s)) :
    (∃ k pieces, Exchanged s₀ request k pieces s) ∧
      (∀ h, ans.tls = some h → r = .ok () → objects s.world h = (none, none)) ∧
      ∀ h w, ans.tls = some h → ans.newSync cfg h (initialized h s₀) = (.ok 1, w) →
        (∀ t ∈ ans.writes, 0 < t.count) → 0 < request.length →
          request.length ≤ ans.writes.length → s.sent = s₀.sent ++ request.chars := by
  refine ⟨?_, ?_, ?_⟩
  · have hdelivered := httpsGetRequest_delivers hlib hlen tickets cfg ans s₀ rfl
    rw [hrun] at hdelivered
    cases r <;> exact hdelivered
  · rintro h htls rfl
    exact httpsGetRequest_clears hlib tickets cfg htls hrun
  · intro h w htls hsync hcounts hpos henough
    have hsent := httpsGetRequest_completes hlib hlen hpos tickets htls s₀ hsync hcounts henough
    rwa [hrun] at hsent

/-- An esp-tls that does just what it has to. -/
def direct : EspTls b where
  init h := Prog.modify (·.updateTls h fun _ => Tls.fresh)
  connWrite := espWolfsslWrite
  connRead := espWolfsslRead
  connDestroy h := Prog.modify fun w => (espWolfsslConnDelete (some h) w).record h .deleted
  setGlobalCaStore buf := espWolfsslSetGlobalCaStore (some buf)
  freeGlobalCaStore := Prog.modify espWolfsslFreeGlobalCaStore

theorem direct_handsOn : (direct : EspTls b).HandsOn :=
  ⟨fun _ => rfl, fun _ _ _ => rfl, fun _ _ _ => rfl, fun _ => rfl, fun _ _ => rfl, rfl⟩

/-- A connection that esp-tls opens at the first attempt. -/
def openAtOnce (cfg : EspTlsCfg) (h : Handle) : Backend b Int32 := do
  Prog.modify (·.setEndpoint h .client 3)
  let ret ← espWolfsslCreateSslHandle h [] (.client cfg.client) allSucceed
  Prog.modify (·.record h (.opened (.client cfg.client) (ret == .ok)))
  if ret = .ok then espWolfsslHandshake h cfg.client ⟨wolfsslSuccess, 0⟩ 0 else pure (-1)

/-- A call that moves at most `count` bytes, or has to be made again. -/
def pieceOf (count : ℕ) : Transfer := ⟨count, -1, 2, by decide⟩

/-- A read that finds the connection closed by the peer. -/
def peerCloses : Transfer := ⟨0, -1, 6, by decide⟩

/-- The peer takes one byte at a time, and closes after one piece. -/
def byteByByte : RequestAnswers b where
  tls := some 0
  newSync := openAtOnce
  writes := List.replicate 3 (pieceOf 1)
  reads := [pieceOf 2, peerCloses]
  getSession := none

theorem delivered_byte_by_byte :
    ∃ s : AppState exampleBuild,
      httpsGetRequest direct false ⟨plainClient, none⟩ ⟨[71, 69, 84], by decide⟩ byteByByte
        (.boot exampleBuild true [72, 105]) = (.ok (), s) ∧
      s.sent = [71, 69, 84] ∧ objects s.world 0 = (none, none) ∧
      ∃ k pieces, Exchanged (.boot exampleBuild true [72, 105]) ⟨[71, 69, 84], by decide⟩ k
        pieces s := by
  have hreturns : (httpsGetRequest direct false ⟨plainClient, none⟩ ⟨[71, 69, 84], by decide⟩
      byteByByte (.boot exampleBuild true [72, 105])).1.isOk = true := by decide +kernel
  obtain ⟨_, s, hrun⟩ := Prog.exists_of_isOk hreturns
  have hsync : ∃ w : World exampleBuild, openAtOnce ⟨plainClient, none⟩ 0
      (initialized 0 (.boot exampleBuild true [72, 105])) = (.ok 1, w) := ⟨_, rfl⟩
  obtain ⟨w, hsync⟩ := hsync
  obtain ⟨hexchanged, hcleared, hcomplete⟩ :=
    request_delivered direct_handsOn (by decide) _ _ _ hrun
  have hsent := hcomplete 0 w rfl hsync (by decide) (by decide) (by decide)
  exact ⟨s, hrun, hsent, hcleared 0 rfl rfl, hexchanged⟩

end Request

end EspWolfssl.RequestDelivery
