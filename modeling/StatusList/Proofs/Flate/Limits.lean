import StatusList.Flate.Zlib
import StatusList.Proofs.Basic

/-!
# The limit on the output

A stream is read under a limit on how much may come out, and the limit decides nothing
else: what has been read under one limit is read in the same way under any other that
has room for it, and under one that has not, the reading ends because the output is
full (`unpack_of_unpack`).

`Limited` says this of a step, of which the output had some size before. It is shown
for each step in turn, along the way in which the steps are put together.
-/

namespace StatusList.Flate

/-- A step whose result depends on its limit only in so far as the output, whose size
    was `before` and is `size a` after a result `a`, has to fit. -/
structure Limited {α : Type} (size : α → Nat) (before : Nat) (step : Nat → Decoder α) : Prop where
  /-- The output grows. -/
  grows : ∀ {limit s a s'}, step limit s = .ok (a, s') → before ≤ size a
  /-- Another limit with room for the output gives the same result. -/
  enough : ∀ {limit s a s'}, step limit s = .ok (a, s') →
    ∀ limit', size a ≤ limit' → step limit' s = .ok (a, s')
  /-- Another limit without room for the output is hit. -/
  short : ∀ {limit s a s'}, step limit s = .ok (a, s') →
    ∀ limit', before ≤ limit' → limit' < size a → step limit' s = .error .full

namespace Limited

variable {α β : Type} {size : α → Nat} {size' : β → Nat} {before : Nat}

/-- A step that has no limit and leaves the size of the output alone. -/
theorem const {step : Decoder α} (h : ∀ s a s', step s = .ok (a, s') → size a = before) :
    Limited size before fun _ => step where
  grows hs := Nat.le_of_eq (h _ _ _ hs).symm
  enough hs _ _ := hs
  short hs _ hle hlt := absurd (h _ _ _ hs) (by omega)

theorem throw (fault : Fault) : Limited size before fun _ => throw fault where
  grows hs := nomatch hs
  enough hs := nomatch hs
  short hs := nomatch hs

theorem pure {a : α} : Limited size (size a) fun _ => pure a :=
  const fun _ _ _ h => by cases h; rfl

/-- A step without a limit comes first. -/
theorem after (first : Decoder β) {next : Nat → β → Decoder α}
    (h : ∀ b, Limited size before fun limit => next limit b) :
    Limited size before fun limit => first >>= next limit where
  grows hs := by
    obtain ⟨b, s₁, _, hn⟩ := bind_eq_ok hs
    exact (h b).grows hn
  enough hs limit' hle := by
    obtain ⟨b, s₁, hf, hn⟩ := bind_eq_ok hs
    simpa [bind, StateT.bind, hf, Except.bind] using (h b).enough hn limit' hle
  short hs limit' hle hlt := by
    obtain ⟨b, s₁, hf, hn⟩ := bind_eq_ok hs
    simpa [bind, StateT.bind, hf, Except.bind] using (h b).short hn limit' hle hlt

/-- Two steps under one limit, the second of which begins with the output of the
    first. -/
theorem bind {first : Nat → Decoder β} {next : Nat → β → Decoder α}
    (hf : Limited size' before first)
    (hn : ∀ b, Limited size (size' b) fun limit => next limit b) :
    Limited size before fun limit => first limit >>= next limit where
  grows hs := by
    obtain ⟨b, s₁, hf', hn'⟩ := bind_eq_ok hs
    exact Nat.le_trans (hf.grows hf') ((hn b).grows hn')
  enough hs limit' hle := by
    obtain ⟨b, s₁, hf', hn'⟩ := bind_eq_ok hs
    have h₁ := hf.enough hf' limit' (Nat.le_trans ((hn b).grows hn') hle)
    simpa [Bind.bind, StateT.bind, h₁, Except.bind] using (hn b).enough hn' limit' hle
  short hs limit' hle hlt := by
    obtain ⟨b, s₁, hf', hn'⟩ := bind_eq_ok hs
    -- The limit is hit by the first step, or it is not and the second one hits it.
    rcases Nat.lt_or_ge limit' (size' b) with h | h
    · have h₁ := hf.short hf' limit' hle h
      simp [Bind.bind, StateT.bind, h₁, Except.bind]
    · have h₁ := hf.enough hf' limit' h
      simpa [Bind.bind, StateT.bind, h₁, Except.bind] using (hn b).short hn' limit' h hlt

theorem ite {p : Prop} [Decidable p] {f g : Nat → Decoder α} (hf : p → Limited size before f)
    (hg : ¬p → Limited size before g) :
    Limited size before fun limit => if p then f limit else g limit := by
  by_cases hp : p
  · simpa [hp] using hf hp
  · simpa [hp] using hg hp

end Limited

/-! ## Output -/

theorem limited_emit (out : ByteArray) (byte : UInt8) :
    Limited ByteArray.size out.size fun limit =>
      (liftM (emit limit out byte) : Decoder ByteArray) where
  grows {limit s a s'} h := by
    unfold emit at h
    split at h <;> cases h
    rw [ByteArray.size_push]
    omega
  enough {limit s a s'} h limit' hle := by
    unfold emit at h ⊢
    split at h <;> cases h
    rw [ByteArray.size_push] at hle
    rw [if_pos (by omega)]
    rfl
  short {limit s a s'} h limit' hle hlt := by
    unfold emit at h ⊢
    split at h <;> cases h
    rw [ByteArray.size_push] at hlt
    rw [if_neg (by omega)]
    rfl

theorem liftM_bind {α β : Type} (x : Except Fault α) (f : α → Except Fault β) :
    (liftM (x >>= f) : Decoder β) = (liftM x : Decoder α) >>= fun a => liftM (f a) := by
  cases x <;> rfl

theorem limited_copyBack (distance n : Nat) (out : ByteArray) :
    Limited ByteArray.size out.size fun limit =>
      (liftM (copyBack limit distance n out) : Decoder ByteArray) := by
  induction n generalizing out with
  | zero => exact .pure
  | succ n ih =>
    simp only [copyBack, liftM_bind]
    exact (limited_emit _ _).bind ih

theorem limited_copyStored (n : Nat) (out : ByteArray) :
    Limited ByteArray.size out.size fun limit => copyStored limit n out := by
  induction n generalizing out with
  | zero => exact .pure
  | succ n ih =>
    -- The next byte of the source is a step without a limit.
    let nextByte : Decoder UInt8 := fun s =>
      if h : s.byteIndex < s.bytes.size then
        .ok (s.bytes.get s.byteIndex h, ⟨s.bytes, s.taken + 8⟩)
      else .error .truncated
    have hstep : (fun limit => copyStored limit (n + 1) out) = fun limit => nextByte >>= fun byte =>
        (liftM (emit limit out byte) : Decoder ByteArray) >>= copyStored limit n := by
      funext limit s
      simp only [copyStored, nextByte, bind, StateT.bind]
      split
      · simp only [Except.bind]
        cases emit limit out _ <;> rfl
      · rfl
    rw [hstep]
    exact .after _ fun byte => (limited_emit _ _).bind ih

/-! ## Blocks -/

theorem limited_takeSymbols (codes : Codes) (fuel : Nat) (out : ByteArray) :
    Limited ByteArray.size out.size fun limit => takeSymbols limit codes fuel out := by
  induction fuel generalizing out with
  | zero => exact .throw _
  | succ fuel ih =>
    simp only [takeSymbols]
    refine .after _ fun symbol => .ite (fun _ => (limited_emit _ _).bind ih) fun _ =>
      .ite (fun _ => .pure) fun _ => ?_
    exact .after _ fun length => .after _ fun symbol => .after _ fun distance =>
      (limited_copyBack _ _ _).bind ih

theorem limited_takeCoded (codes : Codes) (out : ByteArray) :
    Limited ByteArray.size out.size fun limit => takeCoded limit codes out :=
  .after _ fun _ => limited_takeSymbols codes _ out

theorem limited_takeStored (out : ByteArray) :
    Limited ByteArray.size out.size fun limit => takeStored limit out := by
  refine .after _ fun _ => .after _ fun length => .after _ fun check => ?_
  exact .ite (fun _ => .after _ fun _ => limited_copyStored _ _) fun _ => limited_copyStored _ _

theorem limited_takeBlock (out : ByteArray) :
    Limited (fun r : Bool × ByteArray => r.2.size) out.size fun limit => takeBlock limit out := by
  refine .after _ fun last => .after _ fun kind => ?_
  have hlast : ∀ out : ByteArray, Limited (fun r : Bool × ByteArray => r.2.size) out.size
      fun _ => (Pure.pure (last, out) : Decoder (Bool × ByteArray)) :=
    fun _ => .const fun _ _ _ h => by cases h; rfl
  split
  · exact (limited_takeStored out).bind hlast
  · exact .after _ fun codes => (limited_takeCoded codes out).bind hlast
  · exact .after _ fun codes => (limited_takeCoded codes out).bind hlast
  · exact (Limited.throw _).bind hlast

theorem limited_takeBlocks (fuel : Nat) (out : ByteArray) :
    Limited ByteArray.size out.size fun limit => takeBlocks limit fuel out := by
  induction fuel generalizing out with
  | zero => exact .throw _
  | succ fuel ih =>
    exact (limited_takeBlock out).bind fun r => .ite (fun _ => .pure) fun _ => ih r.2

/-! ## Streams -/

theorem limited_inflate : Limited ByteArray.size 0 fun limit => inflate limit :=
  .after _ fun _ => limited_takeBlocks _ .empty

theorem limited_takeStream : Limited ByteArray.size 0 fun limit => takeStream limit := by
  refine .after _ fun method => .after _ fun flags => ?_
  -- What comes after the last block only decides whether the output counts.
  have hchecked : Limited ByteArray.size 0 fun limit => do
      let raw ← inflate limit
      align
      if (← takeBytes 4) ≠ adler32 raw then
        throw .corrupt
      return raw := by
    refine limited_inflate.bind fun raw => .const fun s a s' h => ?_
    obtain ⟨_, _, _, h⟩ := bind_eq_ok h
    obtain ⟨_, _, _, h⟩ := bind_eq_ok h
    split at h <;> cases h
    rfl
  exact .ite (fun _ => .after _ fun _ => hchecked) fun _ => hchecked

/-- What a stream gives under one limit it gives under every limit that has room for it,
    and under any other the output is full. -/
theorem unpack_of_unpack {limit : Nat} {stream raw : ByteArray}
    (h : unpack limit stream = .ok raw) (limit' : Nat) :
    unpack limit' stream = if raw.size ≤ limit' then .ok raw else .error .full := by
  cases hs : takeStream limit (.ofBytes stream) with
  | error e => simp [unpack, StateT.run', hs, Functor.map, Except.map] at h
  | ok r =>
    obtain ⟨out, s'⟩ := r
    have hout : out = raw := by simpa [unpack, StateT.run', hs, Functor.map, Except.map] using h
    subst hout
    split
    · next hle =>
      have henough := limited_takeStream.enough hs limit' hle
      simp [unpack, StateT.run', henough, Functor.map, Except.map]
    · next hlt =>
      have hshort := limited_takeStream.short hs limit' (Nat.zero_le _) (Nat.lt_of_not_le hlt)
      simp [unpack, StateT.run', hshort, Functor.map, Except.map]

/-- A stream gives no more than its limit, whatever it is. -/
theorem size_le_of_unpack {limit : Nat} {stream raw : ByteArray}
    (h : unpack limit stream = .ok raw) : raw.size ≤ limit := by
  have hsame := unpack_of_unpack h limit
  by_contra hlt
  rw [h, if_neg hlt] at hsame
  exact nomatch hsame

end StatusList.Flate
