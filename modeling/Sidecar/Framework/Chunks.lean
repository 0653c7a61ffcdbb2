import Mathlib.Data.List.Basic

/-! Decoders that take items off the front of a buffer, and streams that arrive in pieces. -/

namespace Sidecar

variable {α β ε : Type}

/-- A decoder looks at a buffer. It takes an item off the front, asks for more, or rejects; what
comes later in the stream changes none of its answers but the request for more. -/
structure Decoder (α β ε : Type) where
  decode : List α → Except ε (Option β) × List α
  shorter : ∀ {buf rest : List α} {item : β}, decode buf = (.ok (some item), rest) →
    rest.length < buf.length
  keeps : ∀ {buf rest : List α}, decode buf = (.ok none, rest) → rest = buf
  item_append : ∀ {buf rest : List α} {item : β} (more : List α),
    decode buf = (.ok (some item), rest) → decode (buf ++ more) = (.ok (some item), rest ++ more)
  error_append : ∀ {buf rest : List α} {err : ε} (more : List α),
    decode buf = (.error err, rest) → decode (buf ++ more) = (.error err, rest ++ more)

/-- What came out of a buffer, what is left in it, and the error that ended the loop. -/
structure Drained (α β ε : Type) where
  items : List β
  rest : List α
  error : Option ε
  deriving DecidableEq

namespace Drained

/-- With items that came out before. -/
def after (items : List β) (drained : Drained α β ε) : Drained α β ε :=
  { drained with items := items ++ drained.items }

@[simp]
theorem after_nil (drained : Drained α β ε) : drained.after [] = drained := rfl

theorem after_after (items items' : List β) (drained : Drained α β ε) :
    (drained.after items').after items = drained.after (items ++ items') := by
  simp [after]

@[simp]
theorem after_error (items : List β) (drained : Drained α β ε) :
    (drained.after items).error = drained.error := rfl

end Drained

namespace Decoder

variable (d : Decoder α β ε)

/-- Decodes until the decoder asks for more. -/
def drain (buf : List α) : Drained α β ε :=
  match h : d.decode buf with
  | (.ok (some item), rest) =>
    have := d.shorter h
    (drain rest).after [item]
  | (.ok none, rest) => ⟨[], rest, none⟩
  | (.error err, rest) => ⟨[], rest, some err⟩
termination_by buf.length

/-- Appends one chunk after another to the buffer and drains it each time. -/
def feed : List α → List (List α) → Drained α β ε
  | buf, [] => ⟨[], buf, none⟩
  | buf, chunk :: chunks =>
    let drained := d.drain (buf ++ chunk)
    match drained.error with
    | some _ => drained
    | none => (feed drained.rest chunks).after drained.items

variable {d}

theorem drain_item {buf rest : List α} {item : β} (h : d.decode buf = (.ok (some item), rest)) :
    d.drain buf = (d.drain rest).after [item] := by
  rw [drain]
  split <;> simp_all

theorem drain_none {buf rest : List α} (h : d.decode buf = (.ok none, rest)) :
    d.drain buf = ⟨[], buf, none⟩ := by
  have hrest := d.keeps h
  rw [drain]
  split <;> simp_all

theorem drain_error {buf rest : List α} {err : ε} (h : d.decode buf = (.error err, rest)) :
    d.drain buf = ⟨[], rest, some err⟩ := by
  rw [drain]
  split <;> simp_all

/-- The three ways a loop goes on. -/
theorem drain_cases {P : List α → Drained α β ε → Prop}
    (hnone : ∀ buf, d.decode buf = (.ok none, buf) → P buf ⟨[], buf, none⟩)
    (herror : ∀ buf rest err, d.decode buf = (.error err, rest) → P buf ⟨[], rest, some err⟩)
    (hitem : ∀ buf rest item, d.decode buf = (.ok (some item), rest) → P rest (d.drain rest) →
      P buf ((d.drain rest).after [item])) (buf : List α) : P buf (d.drain buf) := by
  induction hn : buf.length using Nat.strongRecOn generalizing buf with
  | ind n ih =>
    cases hdecode : d.decode buf with
    | mk outcome rest =>
      cases outcome with
      | error err =>
        rw [drain_error hdecode]
        exact herror buf rest err hdecode
      | ok found =>
        cases found with
        | none =>
          rw [drain_none hdecode]
          exact hnone buf (d.keeps hdecode ▸ hdecode)
        | some item =>
          rw [drain_item hdecode]
          exact hitem buf rest item hdecode (ih rest.length (hn ▸ d.shorter hdecode) rest rfl)

/-- Nothing more comes out of what a loop leaves. -/
theorem decode_rest (buf : List α) (h : (d.drain buf).error = none) :
    d.decode (d.drain buf).rest = (.ok none, (d.drain buf).rest) := by
  revert h
  refine drain_cases (P := fun _ r => r.error = none → d.decode r.rest = (.ok none, r.rest))
    ?_ ?_ ?_ buf
  · intro buf hdecode _
    exact hdecode
  · intro buf rest err _ h
    simp at h
  · intro buf rest item _ ih h
    exact ih h

/-- Draining a buffer before more of the stream comes, and going on from what is left. -/
theorem drain_append (buf more : List α) (h : (d.drain buf).error = none) :
    d.drain (buf ++ more) = (d.drain ((d.drain buf).rest ++ more)).after (d.drain buf).items := by
  revert h
  refine drain_cases (P := fun buf r => r.error = none →
    d.drain (buf ++ more) = (d.drain (r.rest ++ more)).after r.items) ?_ ?_ ?_ buf
  · intro buf _ _
    rfl
  · intro buf rest err _ h
    simp at h
  · intro buf rest item hdecode ih h
    rw [drain_item (d.item_append more hdecode), ih h, Drained.after_after]
    rfl

/-- A rejected buffer stays rejected. -/
theorem error_drain_append (buf more : List α) {err : ε} (h : (d.drain buf).error = some err) :
    (d.drain (buf ++ more)).error = some err := by
  revert h
  refine drain_cases (P := fun buf r => r.error = some err →
    (d.drain (buf ++ more)).error = some err) ?_ ?_ ?_ buf
  · intro buf _ h
    simp at h
  · intro buf rest err' hdecode h
    rw [drain_error (d.error_append more hdecode)]
    exact h
  · intro buf rest item hdecode ih h
    rw [drain_item (d.item_append more hdecode), Drained.after_error]
    exact ih h

/-- How a stream is cut does not matter: feeding the chunks gives what the whole stream gives. -/
theorem feed_eq_drain (chunks : List (List α)) {buf : List α}
    (hbuf : d.decode buf = (.ok none, buf)) (h : (d.drain (buf ++ chunks.flatten)).error = none) :
    d.feed buf chunks = d.drain (buf ++ chunks.flatten) := by
  induction chunks generalizing buf with
  | nil =>
    rw [List.flatten_nil, List.append_nil, drain_none hbuf]
    rfl
  | cons chunk chunks ih =>
    rw [List.flatten_cons, ← List.append_assoc] at h ⊢
    have hfirst : (d.drain (buf ++ chunk)).error = none := by
      cases herr : (d.drain (buf ++ chunk)).error with
      | none => rfl
      | some err =>
        rw [error_drain_append _ _ herr] at h
        simp at h
    rw [drain_append _ _ hfirst] at h ⊢
    rw [← ih (decode_rest _ hfirst) h]
    simp only [feed, hfirst]

end Decoder

end Sidecar
