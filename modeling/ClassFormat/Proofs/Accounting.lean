import Mathlib
import ClassFormat.Proofs.Framing

/-!
# What failures tell of the bytes

Two faults tell numbers of bytes: that the data end too early, and that an attribute is longer or
shorter than it declares. What they tell is so, and every failure of a reader has a fault.

* `Fault.Accounts`: what a fault tells of bytes that end at an offset is so;
* `Failure.Settled`: a failure that is so wherever the bytes end, since it does not tell where;
* `Reader.Reports`: a reader whose failures account for the bytes that it was given, with one rule
  for each way to build a reader (`Reader.Reports.bind`, `Reader.Reports.table` and so on);
* `Reader.Settles`: a reader of a part of the bytes. Where that part ends is not where the file
  ends, so the failures of such a reader have to be settled before they get out;
* `Reader.Awaits`: a reader that runs out of bytes for no other reason than that these end, so that
  it does so in the same place if there are more of them, but still too few.
-/

namespace ClassFormat

/-! ### Faults and failures -/

/-- What the fault tells of the bytes is so, if these end at the offset `limit`: they are too few
    from there on, or the length that is declared is not the actual one. -/
def Fault.Accounts (limit : Nat) : Fault → Prop
  | .truncated offset needed available => offset + available = limit ∧ available < needed
  | .lengthMismatch _ declared actual => actual ≠ declared.toNat
  | _ => True

/-- The outermost fault is so of bytes that end at the offset `limit`. -/
def Failure.Accounts (limit : Nat) (f : Failure) : Prop :=
  ∃ fault, f.fault? = some fault ∧ fault.Accounts limit

/-- The failure is so wherever the bytes end. -/
def Failure.Settled (f : Failure) : Prop := ∀ limit, f.Accounts limit

variable {fault : Fault} {f : Failure} {limit : Nat}

theorem Fault.settled (h : ∀ limit, fault.Accounts limit) : (Failure.ofFault fault).Settled :=
  fun limit => ⟨fault, rfl, h limit⟩

/-- Faults of contents tell nothing of where the bytes end. -/
theorem Failure.OfContents.settled (h : f.OfContents) : f.Settled := by
  obtain ⟨fault, hfault, hcontents⟩ := h
  intro limit
  refine ⟨fault, hfault, ?_⟩
  cases fault with
  | truncated | lengthMismatch => exact hcontents.elim
  | _ => trivial

/-- Only a truncation tells where the bytes end. -/
theorem Failure.Accounts.settled (h : f.Accounts limit)
    (htruncated : ∀ offset needed available, f.fault? ≠ some (.truncated offset needed available)) :
    f.Settled := by
  obtain ⟨fault, hfault, haccounts⟩ := h
  intro limit'
  refine ⟨fault, hfault, ?_⟩
  cases fault with
  | truncated offset needed available => exact absurd hfault (htruncated offset needed available)
  | lengthMismatch => exact haccounts
  | _ => trivial

/-- A failure that is so wherever the bytes end is no truncation. -/
theorem Failure.Settled.not_truncated (h : f.Settled) (offset needed available : Nat) :
    f.fault? ≠ some (.truncated offset needed available) := by
  intro htruncated
  obtain ⟨fault, hfault, haccounts⟩ := h (offset + available + 1)
  obtain rfl : fault = .truncated offset needed available := by simpa [htruncated] using hfault.symm
  have hend : offset + available = offset + available + 1 := haccounts.1
  omega

/-! ### Readers -/

/-- The offset at which the bytes that are left end. -/
def Cursor.stop (c : Cursor) : Nat := c.offset + c.rest.length

/-- Taking bytes off does not move the end. -/
theorem Cursor.Past.stop_eq {c c' : Cursor} {bytes : Bytes} (past : c.Past bytes c') :
    c'.stop = c.stop := by
  rw [stop, stop, past.offset, past.rest, List.length_append, Nat.add_assoc]

namespace Reader

variable {α β : Type} {r : Reader α} {k : α → Reader β} {L : Spelling α}

/-- The reader takes off the first of the bytes that it is given, and its failures account for
    these. -/
structure Reports (r : Reader α) : Prop where
  takes : ∀ {c a c'}, r c = .ok a c' → ∃ bytes, c.Past bytes c'
  tells : ∀ {c f c'}, r c = .error f c' → f.Accounts c.stop

/-- The failures of the reader are so wherever its bytes end. -/
structure Settles (r : Reader α) : Prop where
  tells : ∀ {c f c'}, r c = .error f c' → f.Settled

/-! ### How readers fail -/

/-- Either the first reader fails, or the one that follows it does. -/
theorem error_of_bind {c c' : Cursor} (h : (r >>= k) c = .error f c') :
    r c = .error f c' ∨ ∃ a c₁, r c = .ok a c₁ ∧ k a c₁ = .error f c' := by
  simp only [Bind.bind, EStateM.bind] at h
  cases hr : r c with
  | ok a c₁ =>
    rw [hr] at h
    exact Or.inr ⟨a, c₁, rfl, h⟩
  | error e c₁ =>
    rw [hr] at h
    cases h
    exact Or.inl rfl

/-- A changed failure is that of the reader itself, changed. -/
theorem error_of_mapFailure {change : Failure → Failure} {c c' : Cursor}
    (h : mapFailure change r c = .error f c') : ∃ e, r c = .error e c' ∧ f = change e := by
  simp only [Reader.mapFailure] at h
  split at h
  · cases h
  next e c₁ hr =>
    cases h
    exact ⟨e, hr, rfl⟩

/-- What fails in a confined reader fails on the body. -/
theorem error_of_confined {start : Nat} {body : Bytes} {c c' : Cursor}
    (h : confined start body r c = .error f c') :
    ∃ inner, r ⟨body, start, c.log⟩ = .error f inner := by
  simp only [Reader.confined] at h
  split at h
  · cases h
  next e inner hr =>
    cases h
    exact ⟨inner, hr⟩

/-! ### Parts of the bytes -/

/-- Settled failures account for the bytes, wherever these end. -/
theorem Settles.reports (hsettles : r.Settles) (hstill : r.Still) : r.Reports where
  takes h := ⟨[], hstill.past h⟩
  tells h := hsettles.tells h _

theorem Settles.pure (a : α) : Settles (Pure.pure a : Reader α) := ⟨nofun⟩

theorem Settles.log (event : Log.Event) : Settles (Reader.log event) := ⟨nofun⟩

/-- A fault is settled if it is so wherever the bytes end. -/
theorem Settles.raise (h : ∀ limit, fault.Accounts limit) : Settles (fault.raise : Reader α) where
  tells h' := by
    cases h'
    exact Fault.settled h

/-- Settled failures of a computation are settled failures of the reader. -/
theorem Settles.of_settled {e : Except Failure α} (he : ∀ {f}, e = .error f → f.Settled) :
    Settles (liftM e : Reader α) where
  tells h := by
    cases e <;> cases h
    exact he rfl

theorem Settles.check {e : Except Failure α} (he : Judges e) : Settles (liftM e : Reader α) :=
  .of_settled fun hf => (he.refusal hf).settled

/-- A note about where a failure happens keeps it settled. -/
theorem Settles.within {note : Note} (hr : r.Settles) : (within note r).Settles where
  tells h limit := by
    obtain ⟨e, he, rfl⟩ := error_of_mapFailure h
    obtain ⟨fault, hfault, haccounts⟩ := hr.tells he limit
    exact ⟨fault, hfault, haccounts⟩

/-- What follows may rely on what the first reader read. -/
theorem Settles.bind (hr : r.Settles) (hk : ∀ a c c', r c = .ok a c' → (k a).Settles) :
    (r >>= k).Settles where
  tells h := by
    rcases error_of_bind h with h₁ | ⟨a, c₁, h₁, h₂⟩
    · exact hr.tells h₁
    · exact (hk a _ _ h₁).tells h₂

/-- A reader stays settled when it is confined to a body. -/
theorem Settles.confined {start : Nat} {body : Bytes} (hr : r.Settles) :
    (confined start body r).Settles where
  tells h := by
    obtain ⟨inner, hinner⟩ := error_of_confined h
    exact hr.tells hinner

/-! ### All of the bytes -/

theorem Reports.pure (a : α) : Reports (Pure.pure a : Reader α) :=
  (Settles.pure a).reports (.pure a)

theorem Reports.raise (h : ∀ limit, fault.Accounts limit) : Reports (fault.raise : Reader α) :=
  (Settles.raise h).reports (.raise fault)

/-- A computation whose failures are settled accounts for the bytes, as none of them tells where
    these end. -/
theorem Reports.of_settled {e : Except Failure α} (he : ∀ {f}, e = .error f → f.Settled) :
    Reports (liftM e : Reader α) := (Settles.of_settled he).reports (.check e)

/-- A check of contents accounts for the bytes, as it tells nothing of their number. -/
theorem Reports.check {e : Except Failure α} (he : Judges e) : Reports (liftM e : Reader α) :=
  (Settles.check he).reports (.check e)

theorem Reports.log (event : Log.Event) : Reports (Reader.log event) :=
  (Settles.log event).reports (.log event)

/-- What follows may rely on what the first reader read. -/
theorem Reports.bind_ok (hr : r.Reports) (hk : ∀ a c c', r c = .ok a c' → (k a).Reports) :
    (r >>= k).Reports where
  takes h := by
    obtain ⟨a, c₁, h₁, h₂⟩ := bind_eq_ok.1 h
    obtain ⟨x, past⟩ := hr.takes h₁
    obtain ⟨y, past'⟩ := (hk a _ _ h₁).takes h₂
    exact ⟨x ++ y, past.trans past'⟩
  tells {c f c'} h := by
    rcases error_of_bind h with h₁ | ⟨a, c₁, h₁, h₂⟩
    · exact hr.tells h₁
    · obtain ⟨x, past⟩ := hr.takes h₁
      exact past.stop_eq ▸ (hk a _ _ h₁).tells h₂

/-- A reader that goes on after another one is given the same end, so its failures account for the
    same bytes. -/
theorem Reports.bind (hr : r.Reports) (hk : ∀ a, (k a).Reports) : (r >>= k).Reports :=
  hr.bind_ok fun a _ _ _ => hk a

/-- Values that are made of those of a reader. -/
theorem Reports.map {f : α → β} (hr : r.Reports) : Reports (r >>= fun a => Pure.pure (f a)) :=
  hr.bind fun a => .pure (f a)

/-- A reader that first refuses what meets a condition. -/
theorem Reports.refuse {p : Prop} [Decidable p] {k : β → Reader α} {b : β}
    (hfault : ∀ limit, fault.Accounts limit) (hk : (k b).Reports) :
    Reports (if p then (fault.raise : Reader β) >>= k else k b) := by
  split
  · exact Reports.raise hfault
  · exact hk

/-- An offset that is used in messages has no say in what the failures tell of the bytes. -/
theorem Reports.offset {k : Nat → Reader α} (hk : ∀ o, (k o).Reports) :
    (Reader.offset >>= k).Reports where
  takes {c _ _} h := (hk c.offset).takes h
  tells {c _ _} h := (hk c.offset).tells h

/-- A note about where failures happen has no say in what they tell of the bytes. -/
theorem Reports.within {note : Note} (hr : r.Reports) : (within note r).Reports where
  takes h := hr.takes (mapFailure_eq_ok.1 h)
  tells h := by
    obtain ⟨e, he, rfl⟩ := error_of_mapFailure h
    obtain ⟨fault, hfault, haccounts⟩ := hr.tells he
    exact ⟨fault, hfault, haccounts⟩

/-! ### Bytes, numbers and tables -/

/-- The only failure of all: too few bytes are left, and the fault tells how many. -/
theorem reports_bytes (n : Nat) : (bytes n).Reports where
  takes h := by
    obtain ⟨x, -, past⟩ := (reads_bytes n).sound h
    exact ⟨x, past⟩
  tells {c f c'} h := by
    -- There are fewer bytes left than are asked for, so all of them are available.
    simp only [Reader.bytes] at h
    split at h
    next => cases h
    next hne =>
      cases h
      rw [List.length_take] at hne ⊢
      refine ⟨_, rfl, ?_, ?_⟩
      · rw [Cursor.stop]
        omega
      · omega

theorem reports_number (width : Nat) : (number width).Reports := (reports_bytes width).map

theorem reports_u1 : u1.Reports := (reports_number 1).map

theorem reports_u2 : u2.Reports := (reports_number 2).map

theorem reports_u4 : u4.Reports := (reports_number 4).map

theorem reports_u8 : u8.Reports := (reports_number 8).map

theorem reports_i1 : i1.Reports := reports_u1.map

theorem reports_i2 : i2.Reports := reports_u2.map

theorem reports_i4 : i4.Reports := reports_u4.map

theorem reports_i8 : i8.Reports := reports_u8.map

/-- A loop fails as one of its rounds does. -/
theorem Reports.timesFrom {read : Nat → Reader α} (h : ∀ i, (read i).Reports) (n index : Nat)
    (done : List α) : (timesFrom read index done n).Reports := by
  induction n generalizing index done with
  | zero => exact .pure _
  | succ n ih => exact (h index).bind fun a => ih (index + 1) (a :: done)

theorem Reports.times {read : Nat → Reader α} (h : ∀ i, (read i).Reports) (n : Nat) :
    (times n read).Reports :=
  .timesFrom h n 0 []

/-- A table fails as its count or one of its rows does. -/
theorem Reports.table {read : Nat → Reader α} (h : ∀ i, (read i).Reports) : (table read).Reports :=
  reports_u2.bind fun n => .times h n.toNat

theorem Reports.shortTable {read : Nat → Reader α} (h : ∀ i, (read i).Reports) :
    (shortTable read).Reports :=
  reports_u1.bind fun n => .times h n.toNat

/-- All that is left can always be read. -/
theorem reports_remaining : remaining.Reports where
  takes {c _ _} h := (reports_bytes c.rest.length).takes h
  tells {c _ _} h := (reports_bytes c.rest.length).tells h

/-! ### The end of the bytes -/

/-- If the reader lacks bytes, and is given some of these, it lacks the others, in the same
    place. -/
structure Awaits (r : Reader α) : Prop where
  again : ∀ {c f c' offset needed available}, r c = .error f c' →
    f.fault? = some (.truncated offset needed available) →
      ∀ {d : Cursor} {extra}, d.offset = c.offset → d.rest = c.rest ++ extra →
        available + extra.length < needed →
        ∃ e d', r d = .error e d' ∧
          e.fault? = some (.truncated offset needed (available + extra.length))

/-- Settled failures are no truncations. -/
theorem Settles.awaits (h : r.Settles) : r.Awaits where
  again hr hfault := absurd hfault ((h.tells hr).not_truncated _ _ _)

theorem Awaits.pure (a : α) : Awaits (Pure.pure a : Reader α) := (Settles.pure a).awaits

theorem Awaits.raise (h : ∀ limit, fault.Accounts limit) : Awaits (fault.raise : Reader α) :=
  (Settles.raise h).awaits

theorem Awaits.check {e : Except Failure α} (he : Judges e) : Awaits (liftM e : Reader α) :=
  (Settles.check he).awaits

theorem Awaits.log (event : Log.Event) : Awaits (Reader.log event) := (Settles.log event).awaits

/-- If the first reader runs out of bytes, it does so again. If the second one does, the first one
    takes the same bytes as before. -/
theorem Awaits.bind_ok (hstable : r.Stable) (hr : r.Awaits)
    (hk : ∀ a c c', r c = .ok a c' → (k a).Awaits) : (r >>= k).Awaits := by
  refine ⟨fun {c f c' offset needed available} h hfault {d extra} hoffset hd hlt => ?_⟩
  rcases error_of_bind h with h₁ | ⟨a, c₁, h₁, h₂⟩
  · obtain ⟨e, d', he, hefault⟩ := hr.again h₁ hfault hoffset hd hlt
    exact ⟨e, d', by simp only [Bind.bind, EStateM.bind, he], hefault⟩
  · -- The first reader has all of its bytes, so it takes the same ones.
    obtain ⟨x, past, hagain⟩ := hstable.again h₁
    rw [past.rest, List.append_assoc] at hd
    obtain ⟨d₁, hd₁, pastd⟩ := hagain hoffset hd
    obtain ⟨e, d', he, hefault⟩ :=
      (hk a _ _ h₁).again h₂ hfault (by rw [pastd.offset, past.offset, hoffset])
      (pastd.rest_eq hd) hlt
    refine ⟨e, d', ?_, hefault⟩
    simp only [Bind.bind, EStateM.bind, hd₁]
    exact he

/-- Readers that follow each other run out of bytes where one of them does. -/
theorem Awaits.bind (hstable : r.Stable) (hr : r.Awaits) (hk : ∀ a, (k a).Awaits) :
    (r >>= k).Awaits :=
  hr.bind_ok hstable fun a _ _ _ => hk a

/-- What is made of the value has no say in where bytes run out. -/
theorem Awaits.map {f : α → β} (hr : r.Awaits) : Awaits (r >>= fun a => Pure.pure (f a)) := by
  refine ⟨fun {c e c' offset needed available} h hfault {d extra} hoffset hd hlt => ?_⟩
  rcases error_of_bind h with h₁ | ⟨a, c₁, h₁, h₂⟩
  · obtain ⟨e', d', he, hefault⟩ := hr.again h₁ hfault hoffset hd hlt
    exact ⟨e', d', by simp only [Bind.bind, EStateM.bind, he], hefault⟩
  · cases h₂

/-- A reader that first refuses what meets a condition. -/
theorem Awaits.refuse {p : Prop} [Decidable p] {k : β → Reader α} {b : β}
    (hfault : ∀ limit, fault.Accounts limit) (hk : (k b).Awaits) :
    Awaits (if p then (fault.raise : Reader β) >>= k else k b) := by
  split
  · exact Awaits.raise hfault
  · exact hk

/-- The offset that a reader asks for is the same with more bytes. -/
theorem Awaits.offset {k : Nat → Reader α} (hk : ∀ o, (k o).Awaits) :
    (Reader.offset >>= k).Awaits where
  again {c f c' offset needed available} h hfault {d extra} hoffset hd hlt := by
    obtain ⟨e, d', he, hefault⟩ := (hk c.offset).again h hfault hoffset hd hlt
    exact ⟨e, d', by rw [offset_bind, hoffset, he], hefault⟩

/-- A note about where failures happen has no say in where bytes run out. -/
theorem Awaits.within {note : Note} (hr : r.Awaits) : (within note r).Awaits where
  again {c f c' offset needed available} h hfault {d extra} hoffset hd hlt := by
    obtain ⟨e, he, rfl⟩ := error_of_mapFailure h
    obtain ⟨e', d', he', hefault⟩ := hr.again he hfault hoffset hd hlt
    exact ⟨e'.within note, d', by simp only [Reader.within, mapFailure, he'], hefault⟩

/-- Bytes that are too few are still too few with some of the missing ones. -/
theorem awaits_bytes (n : Nat) : (bytes n).Awaits where
  again {c f c' offset needed available} h hfault {d extra} hoffset hd hlt := by
    simp only [Reader.bytes] at h
    split at h
    next => cases h
    next hne =>
      -- All bytes that are left are available, and so are the new ones.
      cases h
      cases hfault
      rw [List.length_take] at hne hlt
      have hshort : d.rest.length < n := by
        rw [hd, List.length_append]
        omega
      refine ⟨.ofFault (.truncated d.offset n d.rest.length), d, ?_, ?_⟩
      · simp only [Reader.bytes, List.take_of_length_le hshort.le, if_neg hshort.ne]
      · rw [hoffset, hd, List.length_append, List.length_take, Nat.min_eq_right (by omega)]
        rfl

theorem awaits_u1 : u1.Awaits := (awaits_bytes 1).map.map

theorem awaits_u2 : u2.Awaits := (awaits_bytes 2).map.map

theorem awaits_u4 : u4.Awaits := (awaits_bytes 4).map.map

theorem awaits_u8 : u8.Awaits := (awaits_bytes 8).map.map

/-- A loop runs out of bytes in the same round. -/
theorem Awaits.timesFrom {read : Nat → Reader α} (hreads : ∀ i, (read i).Reads L)
    (h : ∀ i, (read i).Awaits) (n index : Nat) (done : List α) :
    (timesFrom read index done n).Awaits := by
  induction n generalizing index done with
  | zero => exact .pure _
  | succ n ih => exact .bind (hreads index).stable (h index) fun a => ih (index + 1) (a :: done)

/-- A table runs out of bytes in its count or in the same row. -/
theorem Awaits.table {read : Nat → Reader α} (hreads : ∀ i, (read i).Reads L)
    (h : ∀ i, (read i).Awaits) : (table read).Awaits :=
  .bind reads_u2.stable awaits_u2 fun n => .timesFrom hreads h n.toNat 0 []

end Reader

end ClassFormat
