import SomeipTunnel.Tp.Contents

/-!
# When a message is complete

`add_segment` answers `true` when a segment without the more-segments flag has been noted and the
scan over the segments finds no hole. The specification is `Complete A`: one of the accepted
datagrams `A` is a final one, and together they cover exactly the offsets in front of its end.

The two differ in what is behind the final segment. The scan runs over all segments and does not
know which of them was the final one, so it cannot see that some lie behind it. The equivalence
holds as long as no accepted segment ends behind the end of a final one
(`Reception.Orderly`).

* `scanComplete_eq_true`: the scan with its wrapping sentinel is contiguity from offset 0.
* `TpMessage.Holds.complete_iff`: flag and scan against `Complete`.
* `addSegment_complete_iff`: the answer of every step is `Complete` of what was accepted.
-/

namespace SomeipTunnel.Tp

open Coverage StepRun

/-- The datagram does not announce more segments. -/
def isFinal (data : List UInt8) : Bool := !moreSegments (readUint32Be data 16)

/-- **A message is complete**: one of the accepted datagrams is a final one, and the accepted
datagrams cover exactly the offsets in front of its end. -/
def Complete (A : List (List UInt8)) : Prop :=
  ∃ d ∈ A, isFinal d = true ∧ span (A.map pieceOf) = Finset.range (endOf d)

instance (A : List (List UInt8)) : Decidable (Complete A) :=
  inferInstanceAs (Decidable (∃ _ ∈ A, _))

/-! ### The scan -/

/-- The scan checks that each segment starts behind the one before.
Source: `tp_message.cpp`, lines 195–204 -/
theorem scanComplete_iff {S : List Segment} {lastEnd n : ℕ} (hb : ∀ y ∈ S, y.end_ + 17 < 2 ^ 32)
    (hn : u32 (lastEnd + 1) = n) :
    scanComplete lastEnd S = true ↔ ContiguousFrom Segment.start_ Segment.end_ n S := by
  induction S generalizing lastEnd n with
  | nil => simp [scanComplete, ContiguousFrom]
  | cons y S ih =>
      have hy := hb y List.mem_cons_self
      have ih' := ih (fun z hz => hb z (List.mem_cons_of_mem _ hz))
        (u32_of_lt (by omega : y.end_ + 1 < 2 ^ 32))
      simp only [scanComplete, ContiguousFrom, hn]
      by_cases hstart : n = y.start_
      · simp [hstart, ih']
      · simp [hstart, Ne.symm hstart]

/-- The sentinel `numeric_limits::max()` stands for the end in front of offset 0. -/
theorem scanComplete_eq_true {S : List Segment} (hb : ∀ y ∈ S, y.end_ + 17 < 2 ^ 32) :
    scanComplete (2 ^ 32 - 1) S = true ↔ ContiguousFrom Segment.start_ Segment.end_ 0 S :=
  scanComplete_iff hb (by decide)

section completion

variable {m : TpMessage} {A : List (List UInt8)} {data : List UInt8}

/-- The scan succeeds iff the accepted datagrams cover an initial range. -/
theorem TpMessage.Holds.scan_iff (h : m.Holds A) : scanComplete (2 ^ 32 - 1) m.segments_ = true ↔
      span (A.map pieceOf) = Finset.range (stopOf m.segments_) := by
  rw [scanComplete_eq_true h.layout.bound, ← h.spans, Finset.range_eq_Ico]
  constructor
  · exact h.layout.ordered.offsets_of_contiguousFrom
  · refine h.layout.ordered.contiguousFrom_of_offsets fun y hy => ⟨Nat.zero_le _, ?_⟩
    exact (h.layout.ordered.bounds y hy).trans (h.layout.ordered.hi_lt_stop hy)

/-- No accepted datagram ends behind the segments. -/
theorem TpMessage.Holds.endOf_le (h : m.Holds A) {d : List UInt8} (hd : d ∈ A) :
    endOf d ≤ stopOf m.segments_ := by
  have hpos := h.nonempty d hd
  have hmem : endOf d - 1 ∈ covered m.segments_ := by
    rw [h.spans, mem_span]
    refine ⟨pieceOf d, List.mem_map_of_mem hd, ?_⟩
    rw [mem_range_pieceOf]
    unfold endOf
    omega
  have hlt : endOf d - 1 < stopOf m.segments_ := h.layout.ordered.lt_stop hmem
  omega

/-- Some accepted datagram ends where the segments stop. -/
theorem TpMessage.Holds.exists_endOf_eq (h : m.Holds A) (hne : A ≠ []) :
    ∃ d ∈ A, endOf d = stopOf m.segments_ := by
  obtain ⟨c, hc⟩ := List.exists_mem_of_ne_nil A hne
  have hstop := h.endOf_le hc
  have hpos := h.nonempty c hc
  have hS : m.segments_ ≠ [] := by
    intro hnil
    rw [hnil] at hstop
    simp only [stop_nil, endOf] at hstop
    omega
  have hlast := h.last hS
  rw [h.spans, mem_span] at hlast
  obtain ⟨_, hpiece, hmem⟩ := hlast
  obtain ⟨d, hd, rfl⟩ := List.mem_map.mp hpiece
  have hle := h.endOf_le hd
  have hlt := (mem_range_pieceOf.mp hmem).2
  exact ⟨d, hd, by omega⟩

/-- **Flag and scan are completeness** as long as no accepted datagram ends behind a final one. -/
theorem TpMessage.Holds.complete_iff (h : m.Holds A)
    (hfinal : ∀ d ∈ A, isFinal d = true → ∀ d' ∈ A, endOf d' ≤ endOf d) :
    Complete A ↔ (∃ d ∈ A, isFinal d = true) ∧ scanComplete (2 ^ 32 - 1) m.segments_ = true := by
  have hend : ∀ d ∈ A, isFinal d = true → endOf d = stopOf m.segments_ := by
    intro d hd hf
    obtain ⟨c, hc, heq⟩ := h.exists_endOf_eq (List.ne_nil_of_mem hd)
    have h₁ := hfinal d hd hf c hc
    have h₂ := h.endOf_le hd
    omega
  rw [h.scan_iff]
  constructor
  · rintro ⟨d, hd, hf, hspan⟩
    exact ⟨⟨d, hd, hf⟩, hend d hd hf ▸ hspan⟩
  · rintro ⟨⟨d, hd, hf⟩, hspan⟩
    exact ⟨d, hd, hf, (hend d hd hf).symm ▸ hspan⟩

/-- The answer of the completeness check when `message_` has a header. -/
theorem TpMessage.finish_ret {m' : TpMessage} {ret : Bool} (hf : m.finish data = .ok (ret, m')) :
    (ret = true ↔ m.lastSegmentReceived_ = true ∧ scanComplete (2 ^ 32 - 1) m.segments_ = true) ∧
      m'.lastSegmentReceived_ = m.lastSegmentReceived_ := by
  rcases TpMessage.finish_eq_ok hf with ⟨rfl, hlast, hscan, -, rfl⟩ | ⟨rfl, rfl, hno⟩
  · exact ⟨⟨fun _ => ⟨hlast, hscan⟩, fun _ => rfl⟩, rfl⟩
  · exact ⟨by simpa using hno, rfl⟩

end completion

/-! ### Exact completion -/

/-- The steps at which the answer is exact: the message has not been complete before, the segment
loses nothing, and no accepted datagram ends behind the end of a final one.
Source: none: the reassembler drops an object that has answered `true`; the rest is what the
completeness scan does not see -/
structure Reception.Orderly (t : Reception) (data : List UInt8) : Prop where
  unfinished : ¬ Complete t.accepted
  whole : t.message.TakesWhole data
  final : t.message.Accepts data → ∀ d ∈ t.accepted ++ [data], isFinal d = true →
    ∀ d' ∈ t.accepted ++ [data], endOf d' ≤ endOf d

instance (t : Reception) (data : List UInt8) : Decidable (t.Orderly data) :=
  decidable_of_iff (¬ Complete t.accepted ∧ t.message.TakesWhole data ∧
    (t.message.Accepts data → ∀ d ∈ t.accepted ++ [data], isFinal d = true →
      ∀ d' ∈ t.accepted ++ [data], endOf d' ≤ endOf d))
    ⟨fun ⟨h₁, h₂, h₃⟩ => ⟨h₁, h₂, h₃⟩, fun ⟨h₁, h₂, h₃⟩ => ⟨h₁, h₂, h₃⟩⟩

/-- What the object holds, and that it has noted the final segment. The constructor does not note
one that is the whole message. -/
def Reception.Tracks (t : Reception) : Prop :=
  t.message.Holds t.accepted ∧ (Complete t.accepted ∨
    (t.message.lastSegmentReceived_ = true ↔ ∃ d ∈ t.accepted, isFinal d = true))

section exact

variable {t : Reception} {data : List UInt8}

/-- **The step lemma**: an orderly step returns, answers whether the message is complete now, and
goes on tracking. -/
theorem Reception.Tracks.addSegment (h : t.Tracks) (ho : t.Orderly data) :
    ∃ ret t', t.addSegment data = .ok (ret, t') ∧ t'.Tracks ∧
      (ret = true ↔ Complete t'.accepted) := by
  obtain ⟨hholds, htrack⟩ := h
  have hflag := htrack.resolve_left ho.unfinished
  rcases hholds.layout.addSegment_cases ho.whole.admits with
    ⟨hacc, heq⟩ | ⟨hacc, pre, post, p, hst, heq⟩
  · refine ⟨false, t, Reception.addSegment_eq_ok.mpr ⟨heq, by rw [if_neg hacc]⟩,
      ⟨hholds, htrack⟩, ?_⟩
    simp [ho.unfinished]
  · have hstore := hholds.store (ho.whole hacc) hst
    obtain ⟨ret, m', hf⟩ := TpMessage.finish_isOk data
      (hstore.length ▸ Nat.le_add_right _ _ : 16 ≤ (t.message.store data p).message_.length)
    obtain ⟨hret, hkeep⟩ := TpMessage.finish_ret hf
    have hflag' : (t.message.store data p).lastSegmentReceived_ = true ↔
        ∃ d ∈ t.accepted ++ [data], isFinal d = true := by
      simp [TpMessage.store, hflag, isFinal, or_and_right, exists_or]
    refine ⟨ret, ⟨m', t.accepted ++ [data]⟩,
      Reception.addSegment_eq_ok.mpr ⟨heq.trans hf, by rw [if_pos hacc]⟩,
      ⟨hstore.finish hf, Or.inr ?_⟩, ?_⟩
    · rw [hkeep, hflag']
    · rw [hret, hflag', hstore.complete_iff (ho.final hacc)]

/-- The constructor's datagram of at least 20 bytes is tracked. -/
theorem Reception.Tracks.start {max : ℕ} {now : ℤ} (hlen : 20 ≤ data.length)
    (hw : (TpMessage.blank max now).TakesWhole data) : (Reception.start data max now).Tracks := by
  refine ⟨TpMessage.Holds.new hlen hw, ?_⟩
  by_cases hacc : (TpMessage.blank max now).Accepts data
  · simp only [Reception.start, if_pos hacc, TpMessage.new_of_accepts hacc]
    by_cases h0 : offsetOf data = 0
    · by_cases hfinal : isFinal data = true
      · -- the whole message in one segment
        refine Or.inl ⟨data, List.mem_singleton.mpr rfl, hfinal, ?_⟩
        ext k
        simp [mem_span, mem_range_pieceOf, h0]
      · exact Or.inr (by simp [h0, hfinal])
    · exact Or.inr (by simp [h0, isFinal])
  · simp only [Reception.start, if_neg hacc, TpMessage.new_of_not_accepts hacc]
    exact Or.inr (by simp [TpMessage.blank])

end exact

/-- **Completion is exact on orderly runs**: for every first datagram of at least 20 bytes and every
sequence of further ones, if each step is orderly, then every call of `add_segment` returns, and it
answers `true` if and only if a final datagram has been accepted by then and the accepted ones cover
exactly the offsets in front of its end.
Source: `tp_message.cpp`, `add_segment`, lines 189–216 -/
theorem addSegment_complete_iff (first : List UInt8) (rest : List (List UInt8)) (max : ℕ) (now : ℤ)
    (hlen : 20 ≤ first.length) (hfirst : (TpMessage.blank max now).TakesWhole first)
    (hrest : AllSteps Reception.addSegment Reception.Orderly (Reception.start first max now) rest) :
    AllSteps Reception.addSegment (fun t data => ∃ ret t', t.addSegment data = .ok (ret, t') ∧
        (ret = true ↔ Complete t'.accepted)) (Reception.start first max now) rest := by
  refine AllSteps.of_invariant Reception.Tracks (fun t data ret t' ht ho hs => ?_)
    (fun t data ht ho => ?_) (Reception.Tracks.start hlen hfirst) hrest
  · obtain ⟨ret₁, t₁, hs₁, ht₁, -⟩ := ht.addSegment ho
    obtain ⟨rfl, rfl⟩ := ok_unique hs hs₁
    exact ht₁
  · obtain ⟨ret, t', hs, -, hret⟩ := ht.addSegment ho
    exact ⟨ret, t', hs, hret⟩

/-- A message whose final segment arrives first and whose last missing one overlaps. -/
theorem addSegment_complete_iff_reordered : AllSteps Reception.addSegment
      (fun t data => ∃ ret t', t.addSegment data = .ok (ret, t') ∧
        (ret = true ↔ Complete t'.accepted)) (Reception.start (requestSegment 48 true 5 1) 5000 0)
      [requestSegment 0 false 32 2, requestSegment 16 false 32 3] :=
  addSegment_complete_iff _ _ _ _ (by decide +kernel) (by decide +kernel) (by decide +kernel)

/-- A segment behind the final one: the scan finds no hole and the message of 48 bytes is delivered,
although its final segment ends at 32. -/
theorem addSegment_delivers_past_final :
    (∃ t, run Reception.addSegment (Reception.start (requestSegment 0 false 16 1) 5000 0)
        [requestSegment 32 false 16 2, requestSegment 16 true 16 3] = .ok ([false, true], t) ∧
      t.message.segments_ = [⟨0, 15⟩, ⟨16, 31⟩, ⟨32, 47⟩] ∧
      t.accepted.map (fun d => (offsetOf d, endOf d, isFinal d)) =
        [(0, 16, false), (32, 48, false), (16, 32, true)]) ∧ ¬ AllSteps Reception.addSegment
      (fun t data => ∃ ret t', t.addSegment data = .ok (ret, t') ∧
        (ret = true ↔ Complete t'.accepted)) (Reception.start (requestSegment 0 false 16 1) 5000 0)
      [requestSegment 32 false 16 2, requestSegment 16 true 16 3] := by
  refine ⟨⟨_, rfl, rfl, by decide +kernel⟩, fun h => ?_⟩
  have h : AllSteps _ _ _ ([_] ++ [_]) := h
  obtain ⟨ret, t', hs, hret⟩ := h.of_run_concat rfl
  obtain ⟨rfl, rfl⟩ := Prod.mk.inj (Except.ok.inj hs)
  revert hret
  decide +kernel

end SomeipTunnel.Tp
