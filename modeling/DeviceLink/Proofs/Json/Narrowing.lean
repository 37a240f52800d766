import DeviceLink.Json.Shape
import DeviceLink.Proofs.Result
import Mathlib.Data.List.Forall2
import Mathlib.Data.Option.Defs

/-! Shapes that narrow others: a text is read as a value of the narrow shape exactly if it is read
under the wide one, and what is read there passes the checks that the narrow shape makes. -/
namespace DeviceLink.Json

section Readers

variable {σ τ α β γ δ : Type} {S : σ → τ → Prop} {R : α → β → Prop} {Q : γ → δ → Prop}

/-- Two readers that go on from what was read before: it makes no difference whether a relation is
passed before the step or after it. -/
def Commutes (S : σ → τ → Prop) (narrow : τ → Reader β) (wide : σ → Reader α)
    (R : α → β → Prop) : Prop :=
  ∀ x s b t, (∃ y, S x y ∧ narrow y s = .ok (b, t)) ↔ ∃ a, wide x s = .ok (a, t) ∧ R a b

/-- A reader accepts what another accepts, as far as what is read stands in a relation to a result
of its own, and reads equally far. -/
def Narrows (narrow : Reader β) (wide : Reader α) (R : α → β → Prop) : Prop :=
  ∀ s b t, narrow s = .ok (b, t) ↔ ∃ a, wide s = .ok (a, t) ∧ R a b

def Both (R : α → β → Prop) (Q : γ → δ → Prop) (p : α × γ) (q : β × δ) : Prop :=
  R p.1 q.1 ∧ Q p.2 q.2

theorem narrows_refl (read : Reader α) : Narrows read read Eq := by
  refine fun s b t => ⟨fun h => ⟨b, h, rfl⟩, ?_⟩
  rintro ⟨a, h, rfl⟩
  exact h

theorem Commutes.after {before : List UInt8 → Except ReadError (γ × List UInt8)}
    {narrow : γ → τ → Reader β} {wide : γ → σ → Reader α}
    (h : ∀ v, Commutes S (narrow v) (wide v) R) :
    Commutes S (fun y s => before s >>= fun r => narrow r.1 y r.2)
      (fun x s => before s >>= fun r => wide r.1 x r.2) R := by
  intro x s b t
  dsimp only
  cases before s with
  | error e =>
    constructor
    · rintro ⟨y, -, ⟨⟩⟩
    · rintro ⟨a, ⟨⟩, -⟩
  | ok r => exact h r.1 x r.2 b t

theorem Commutes.bind {narrow : τ → Reader β} {wide : σ → Reader α} {narrow' : β → Reader δ}
    {wide' : α → Reader γ} (h : Commutes S narrow wide R) (hnext : Commutes R narrow' wide' Q) :
    Commutes S (fun y s => narrow y s >>= fun r => narrow' r.1 r.2)
      (fun x s => wide x s >>= fun r => wide' r.1 r.2) Q := by
  intro x s d t
  constructor
  · rintro ⟨y, hxy, hread⟩
    obtain ⟨⟨b, s₁⟩, hb, hread⟩ := bind_eq_ok.mp hread
    obtain ⟨a, ha, hab⟩ := (h x s b s₁).mp ⟨y, hxy, hb⟩
    obtain ⟨c, hc, hcd⟩ := (hnext a s₁ d t).mp ⟨b, hab, hread⟩
    exact ⟨c, bind_eq_ok.mpr ⟨_, ha, hc⟩, hcd⟩
  · rintro ⟨c, hread, hcd⟩
    obtain ⟨⟨a, s₁⟩, ha, hc⟩ := bind_eq_ok.mp hread
    obtain ⟨b, hab, hd⟩ := (hnext a s₁ d t).mpr ⟨c, hc, hcd⟩
    obtain ⟨y, hxy, hb⟩ := (h x s b s₁).mpr ⟨a, ha, hab⟩
    exact ⟨y, hxy, bind_eq_ok.mpr ⟨_, hb, hd⟩⟩

/-- What is read next is put together with what was read before. -/
theorem Narrows.combine {ε ζ : Type} {P : ε → ζ → Prop} {narrow : Reader δ} {wide : Reader γ}
    {f : α → γ → ε} {g : β → δ → ζ} (h : Narrows narrow wide Q)
    (hfg : ∀ a c p, P (f a c) p ↔ ∃ b d, R a b ∧ Q c d ∧ p = g b d) :
    Commutes R (fun b s => narrow s >>= fun r => .ok (g b r.1, r.2))
      (fun a s => wide s >>= fun r => .ok (f a r.1, r.2)) P := by
  intro a s p t
  constructor
  · rintro ⟨b, hab, hread⟩
    obtain ⟨⟨d, s₁⟩, hd, hread⟩ := bind_eq_ok.mp hread
    cases hread
    obtain ⟨c, hc, hcd⟩ := (h _ _ _).mp hd
    exact ⟨f a c, bind_eq_ok.mpr ⟨_, hc, rfl⟩, (hfg a c _).mpr ⟨b, d, hab, hcd, rfl⟩⟩
  · rintro ⟨_, hread, hp⟩
    obtain ⟨⟨c, s₁⟩, hc, hread⟩ := bind_eq_ok.mp hread
    cases hread
    obtain ⟨b, d, hab, hcd, rfl⟩ := (hfg a c p).mp hp
    exact ⟨b, hab, bind_eq_ok.mpr ⟨_, (h _ _ _).mpr ⟨c, hc, hcd⟩, rfl⟩⟩

section Narrows

variable {narrow : Reader β} {wide : Reader α}

theorem narrows_iff : Narrows narrow wide R ↔
    Commutes (fun _ _ : Unit => True) (fun _ => narrow) (fun _ => wide) R := by
  have hunit : ∀ s b t,
      (∃ _ : Unit, True ∧ narrow s = .ok (b, t)) ↔ narrow s = .ok (b, t) :=
    fun _ _ _ => ⟨fun ⟨_, _, h⟩ => h, fun h => ⟨(), trivial, h⟩⟩
  constructor
  · exact fun h _ s b t => (hunit s b t).trans (h s b t)
  · exact fun h s b t => (hunit s b t).symm.trans (h () s b t)

theorem Narrows.bind (h : Narrows narrow wide R) {narrow' : β → Reader δ}
    {wide' : α → Reader γ} (hnext : Commutes R narrow' wide' Q) :
    Narrows (fun s => narrow s >>= fun r => narrow' r.1 r.2)
      (fun s => wide s >>= fun r => wide' r.1 r.2) Q :=
  narrows_iff.mpr ((narrows_iff.mp h).bind hnext)

theorem Narrows.after {before : List UInt8 → Except ReadError (γ × List UInt8)}
    {narrow : γ → Reader β} {wide : γ → Reader α} (h : ∀ v, Narrows (narrow v) (wide v) R) :
    Narrows (fun s => before s >>= fun r => narrow r.1 r.2)
      (fun s => before s >>= fun r => wide r.1 r.2) R :=
  narrows_iff.mpr (Commutes.after fun v => narrows_iff.mp (h v))

def readItemsOn {α : Type} (item : Reader α) (fuel : Nat) : Bool → Reader (List α)
  | true => fun s =>
    item s >>= fun r => readItems item fuel false r.2 >>= fun q => .ok (r.1 :: q.1, q.2)
  | false => fun s => .ok ([], s.drop 1)

theorem readItems_succ {α : Type} (item : Reader α) (fuel : Nat) (first : Bool) :
    readItems item (fuel + 1) first =
      fun s => readSeparator 0x5D first s >>= fun r => readItemsOn item fuel r.1 r.2 := by
  funext s
  rw [readItems]
  cases readSeparator 0x5D first s with
  | error e => rfl
  | ok r =>
    obtain ⟨more, s⟩ := r
    cases more <;> rfl

/-- All items are read alike, one after the other. -/
theorem Narrows.readItems (h : Narrows narrow wide R) (fuel : Nat) (first : Bool) :
    Narrows (Json.readItems narrow fuel first) (Json.readItems wide fuel first)
      (List.Forall₂ R) := by
  induction fuel generalizing first with
  | zero =>
    intro s l t
    constructor
    · rintro ⟨⟩
    · rintro ⟨l', ⟨⟩, -⟩
  | succ fuel ih =>
    have hnil : Narrows (fun s => .ok ([], s.drop 1)) (fun s => .ok ([], s.drop 1))
        (List.Forall₂ R) := by
      intro s l t
      constructor
      · rintro ⟨⟩
        exact ⟨[], rfl, .nil⟩
      · rintro ⟨l', ⟨⟩, hall⟩
        cases hall
        rfl
    have hcons := h.bind ((ih false).combine (f := List.cons) (g := List.cons)
      fun a l p => List.forall₂_cons_left_iff)
    rw [readItems_succ, readItems_succ]
    refine Narrows.after fun more => ?_
    cases more with
    | true => exact hcons
    | false => exact hnil

end Narrows

section Members

def readQuoted : Reader String
  | [] => .error .truncated
  | b :: s => if b ≠ 0x22 then .error .malformed else readString s

def readMembersOn (member : String → σ → Reader σ) (fuel : Nat) : Bool → σ → Reader σ
  | true => fun state s => readQuoted s >>= fun r =>
    member r.1 state r.2 >>= fun q => readMembers member fuel false q.1 q.2
  | false => fun state s => .ok (state, s.drop 1)

theorem readMembers_succ (member : String → σ → Reader σ) (fuel : Nat) (first : Bool) :
    readMembers member (fuel + 1) first =
      fun state s => readSeparator 0x7D first s >>= fun r =>
        readMembersOn member fuel r.1 state r.2 := by
  funext state s
  rw [readMembers]
  cases readSeparator 0x7D first s with
  | error e => rfl
  | ok r =>
    obtain ⟨more, s⟩ := r
    cases more with
    | false => rfl
    | true =>
      cases s with
      | nil => rfl
      | cons b s =>
        by_cases hb : b = 0x22
        · subst hb
          rfl
        · simp only [readMembersOn, readQuoted, ne_eq, hb, not_false_eq_true, if_true, bind,
            Except.bind]

/-- What is passed over at every member is passed over at all members of an object. -/
theorem Commutes.readMembers {narrow : String → τ → Reader τ} {wide : String → σ → Reader σ}
    (h : ∀ key, Commutes S (narrow key) (wide key) S) (fuel : Nat) (first : Bool) :
    Commutes S (Json.readMembers narrow fuel first) (Json.readMembers wide fuel first) S := by
  induction fuel generalizing first with
  | zero =>
    intro x s b t
    constructor
    · rintro ⟨y, -, ⟨⟩⟩
    · rintro ⟨a, ⟨⟩, -⟩
  | succ fuel ih =>
    rw [readMembers_succ, readMembers_succ]
    refine Commutes.after fun more => ?_
    cases more with
    | true => exact Commutes.after fun key => (h key).bind (ih false)
    | false =>
      intro x s b t
      constructor
      · rintro ⟨y, hxy, ⟨⟩⟩
        exact ⟨x, rfl, hxy⟩
      · rintro ⟨a, ⟨⟩, hxb⟩
        exact ⟨b, hxb, rfl⟩

end Members

section Parts

theorem Commutes.first {narrow : τ → Reader β} {wide : σ → Reader α}
    (h : Commutes S narrow wide R) :
    Commutes (Both S Q) (fun y s => narrow y.1 s >>= fun r => .ok ((r.1, y.2), r.2))
      (fun x s => wide x.1 s >>= fun r => .ok ((r.1, x.2), r.2)) (Both R Q) := by
  intro x s q t
  constructor
  · rintro ⟨y, ⟨hfirst, hsecond⟩, hread⟩
    obtain ⟨⟨b, s₁⟩, hb, hread⟩ := bind_eq_ok.mp hread
    cases hread
    obtain ⟨a, ha, hab⟩ := (h _ _ _ _).mp ⟨y.1, hfirst, hb⟩
    exact ⟨(a, x.2), bind_eq_ok.mpr ⟨_, ha, rfl⟩, hab, hsecond⟩
  · rintro ⟨p, hread, hpq⟩
    obtain ⟨⟨a, s₁⟩, ha, hread⟩ := bind_eq_ok.mp hread
    cases hread
    obtain ⟨y, hy, hb⟩ := (h _ _ _ _).mpr ⟨a, ha, hpq.1⟩
    exact ⟨(y, q.2), ⟨hy, hpq.2⟩, bind_eq_ok.mpr ⟨_, hb, rfl⟩⟩

theorem Commutes.second {narrow : τ → Reader β} {wide : σ → Reader α}
    (h : Commutes S narrow wide R) :
    Commutes (Both Q S) (fun y s => narrow y.2 s >>= fun r => .ok ((y.1, r.1), r.2))
      (fun x s => wide x.2 s >>= fun r => .ok ((x.1, r.1), r.2)) (Both Q R) := by
  intro x s q t
  constructor
  · rintro ⟨y, ⟨hfirst, hsecond⟩, hread⟩
    obtain ⟨⟨b, s₁⟩, hb, hread⟩ := bind_eq_ok.mp hread
    cases hread
    obtain ⟨a, ha, hab⟩ := (h _ _ _ _).mp ⟨y.2, hsecond, hb⟩
    exact ⟨(x.1, a), bind_eq_ok.mpr ⟨_, ha, rfl⟩, hfirst, hab⟩
  · rintro ⟨p, hread, hpq⟩
    obtain ⟨⟨a, s₁⟩, ha, hread⟩ := bind_eq_ok.mp hread
    cases hread
    obtain ⟨y, hy, hb⟩ := (h _ _ _ _).mpr ⟨a, ha, hpq.2⟩
    exact ⟨(q.1, y), ⟨hpq.1, hy⟩, bind_eq_ok.mpr ⟨_, hb, rfl⟩⟩

end Parts

section Fields

def orElse {σ α : Type} (e : ReadError) (read : σ → Reader α) : Option σ → Reader α
  | none => fun _ => .error e
  | some x => read x

theorem Commutes.orElse {narrow : τ → Reader β} {wide : σ → Reader α}
    (h : Commutes S narrow wide R) (e : ReadError) :
    Commutes (Option.Rel S) (Json.orElse e narrow) (Json.orElse e wide) R := by
  intro slot s b t
  cases slot with
  | none =>
    constructor
    · rintro ⟨_, ⟨⟩, ⟨⟩⟩
    · rintro ⟨_, ⟨⟩, -⟩
  | some x =>
    refine Iff.trans ?_ (h x s b t)
    constructor
    · rintro ⟨_, ⟨hxy⟩, hread⟩
      exact ⟨_, hxy, hread⟩
    · rintro ⟨y, hxy, hread⟩
      exact ⟨some y, .some hxy, hread⟩

variable {narrow : Reader β} {wide : Reader α}

theorem Narrows.readSlot (h : Narrows narrow wide R) (name : String) :
    Commutes (Option.Rel R) (Json.readSlot name narrow) (Json.readSlot name wide)
      (Option.Rel R) := by
  intro slot s next t
  cases slot with
  | some a =>
    constructor
    · rintro ⟨_, ⟨⟩, ⟨⟩⟩
    · rintro ⟨_, ⟨⟩, -⟩
  | none =>
    constructor
    · rintro ⟨_, ⟨⟩, hread⟩
      obtain ⟨s₁, hcolon, hread⟩ := bind_eq_ok.mp hread
      obtain ⟨⟨b, s₂⟩, hb, hread⟩ := bind_eq_ok.mp hread
      cases hread
      obtain ⟨a, ha, hab⟩ := (h _ _ _).mp hb
      exact ⟨some a, bind_eq_ok.mpr ⟨_, hcolon, bind_eq_ok.mpr ⟨_, ha, rfl⟩⟩, .some hab⟩
    · rintro ⟨_, hread, hrel⟩
      obtain ⟨s₁, hcolon, hread⟩ := bind_eq_ok.mp hread
      obtain ⟨⟨a, s₂⟩, ha, hread⟩ := bind_eq_ok.mp hread
      cases hread
      cases hrel with
      | some hab =>
        have hb := (h _ _ _).mpr ⟨a, ha, hab⟩
        exact ⟨none, .none, bind_eq_ok.mpr ⟨_, hcolon, bind_eq_ok.mpr ⟨_, hb, rfl⟩⟩⟩

theorem Narrows.readElement (h : Narrows narrow wide R) (first : Bool) :
    Narrows (Json.readElement narrow first) (Json.readElement wide first) (Option.Rel R) := by
  intro s slot t
  constructor
  · intro hread
    obtain ⟨⟨more, s₁⟩, hmore, hread⟩ := bind_eq_ok.mp hread
    cases more with
    | false =>
      cases hread
      exact ⟨none, bind_eq_ok.mpr ⟨_, hmore, rfl⟩, .none⟩
    | true =>
      obtain ⟨⟨b, s₂⟩, hb, hread⟩ := bind_eq_ok.mp hread
      cases hread
      obtain ⟨a, ha, hab⟩ := (h _ _ _).mp hb
      exact ⟨some a, bind_eq_ok.mpr ⟨_, hmore, bind_eq_ok.mpr ⟨_, ha, rfl⟩⟩, .some hab⟩
  · rintro ⟨_, hread, hrel⟩
    obtain ⟨⟨more, s₁⟩, hmore, hread⟩ := bind_eq_ok.mp hread
    cases more with
    | false =>
      cases hread
      cases hrel
      exact bind_eq_ok.mpr ⟨_, hmore, rfl⟩
    | true =>
      obtain ⟨⟨a, s₂⟩, ha, hread⟩ := bind_eq_ok.mp hread
      cases hread
      cases hrel with
      | some hab =>
        have hb := (h _ _ _).mpr ⟨a, ha, hab⟩
        exact bind_eq_ok.mpr ⟨_, hmore, bind_eq_ok.mpr ⟨_, hb, rfl⟩⟩

end Fields

end Readers

/-- A row of fields narrows another, field by field, while the slots of the two are filled in
step. -/
structure Row.Narrows {α β : Type} (narrow : Row β) (wide : Row α)
    (S : wide.Slots → narrow.Slots → Prop) (R : α → β → Prop) : Prop where
  empty : ∀ slots, S wide.empty slots ↔ slots = narrow.empty
  member : ∀ room key, Commutes S (narrow.readMember room key) (wide.readMember room key) S
  ofSlots : ∀ slots b, (∃ slots', S slots slots' ∧ narrow.ofSlots slots' = .ok b) ↔
    ∃ a, wide.ofSlots slots = .ok a ∧ R a b
  elements : ∀ room first,
    Json.Narrows (narrow.readElements room first) (wide.readElements room first) R

/-- A shape accepts what another accepts, as far as the value stands in a relation to one of its
own. -/
def Shape.Narrows {α β : Type} (narrow : Shape β) (wide : Shape α) (R : α → β → Prop) : Prop :=
  ∀ room, Json.Narrows (narrow.read room) (wide.read room) R

theorem Row.narrows_nil : Row.Narrows .nil .nil Eq Eq where
  empty slots := ⟨fun _ => rfl, fun _ => rfl⟩
  member room key := by
    intro slots s next t
    constructor
    · rintro ⟨_, rfl, hread⟩
      exact ⟨next, hread, rfl⟩
    · rintro ⟨_, hread, rfl⟩
      exact ⟨slots, rfl, hread⟩
  ofSlots slots b := by
    constructor
    · rintro ⟨_, rfl, hb⟩
      exact ⟨b, hb, rfl⟩
    · rintro ⟨_, hb, rfl⟩
      exact ⟨slots, rfl, hb⟩
  elements room first := narrows_refl _

/-- A field that must be there begins the array form, and the other fields follow. -/
theorem Row.readElements_required {α γ : Type} (name : String) (shape : Shape α) (rest : Row γ)
    (room : Nat) (first : Bool) :
    (Row.required name shape rest).readElements room first = fun s =>
      Json.readElement (shape.read room) first s >>= fun r =>
        orElse .tooShort (fun a s => rest.readElements room false s >>= fun r =>
          .ok ((a, r.1), r.2)) r.1 r.2 := by
  funext s
  rw [Row.readElements]
  congr 1
  funext r
  obtain ⟨slot, s⟩ := r
  cases slot <;> rfl

section Required

variable {α β γ δ : Type} {narrow : Shape β} {wide : Shape α} {R : α → β → Prop}
  {narrowRest : Row δ} {wideRest : Row γ} {S : wideRest.Slots → narrowRest.Slots → Prop}
  {Q : γ → δ → Prop}

theorem Row.Narrows.required (hrest : narrowRest.Narrows wideRest S Q)
    (h : narrow.Narrows wide R) (name : String) :
    (Row.required name narrow narrowRest).Narrows (.required name wide wideRest)
      (Both (Option.Rel R) S) (Both R Q) where
  empty slots := by
    constructor
    · rintro ⟨hslot, hslots⟩
      obtain ⟨slot, slots⟩ := slots
      have hnone : slot = none := by
        cases (show Option.Rel R none slot from hslot)
        rfl
      exact Prod.ext hnone ((hrest.empty _).mp hslots)
    · rintro rfl
      exact ⟨.none, (hrest.empty _).mpr rfl⟩
  member room key := by
    intro slots s next t
    by_cases hkey : key = name
    · simp only [Row.readMember, if_pos hkey]
      exact ((h room).readSlot name).first slots s next t
    · simp only [Row.readMember, if_neg hkey]
      exact (hrest.member room key).second slots s next t
  ofSlots slots p := by
    obtain ⟨slot, slots⟩ := slots
    constructor
    · rintro ⟨⟨slot', slots'⟩, ⟨hslot, hslots⟩, hp⟩
      have hrel : Option.Rel R slot slot' := hslot
      cases hrel with
      | none => cases hp
      | some hab =>
        obtain ⟨d, hd, rfl⟩ := map_eq_ok.mp hp
        obtain ⟨c, hc, hcd⟩ := (hrest.ofSlots slots d).mp ⟨slots', hslots, hd⟩
        exact ⟨_, map_eq_ok.mpr ⟨c, hc, rfl⟩, hab, hcd⟩
    · rintro ⟨q, hq, hrel⟩
      cases slot with
      | none => cases hq
      | some a =>
        obtain ⟨c, hc, rfl⟩ := map_eq_ok.mp hq
        obtain ⟨slots', hslots, hd⟩ := (hrest.ofSlots slots p.2).mpr ⟨c, hc, hrel.2⟩
        exact ⟨(some p.1, slots'), ⟨.some hrel.1, hslots⟩, map_eq_ok.mpr ⟨p.2, hd, rfl⟩⟩
  elements room first := by
    have hsome : Commutes R
        (fun b s => narrowRest.readElements room false s >>= fun r => .ok ((b, r.1), r.2))
        (fun a s => wideRest.readElements room false s >>= fun r => .ok ((a, r.1), r.2))
        (Both R Q) := by
      apply (hrest.elements room false).combine
      intro a c p
      constructor
      · exact fun hp => ⟨p.1, p.2, hp.1, hp.2, rfl⟩
      · rintro ⟨b, d, hab, hcd, rfl⟩
        exact ⟨hab, hcd⟩
    have hfield := ((h room).readElement first).bind (hsome.orElse .tooShort)
    rw [Row.readElements_required, Row.readElements_required]
    exact hfield

end Required

theorem readOther_ne_ok {α : Type} (s : List UInt8) (r : α × List UInt8) : readOther s ≠ .ok r := by
  intro h
  cases s with
  | nil => cases h
  | cons c s =>
    rw [readOther] at h
    split_ifs at h
    obtain ⟨_, -, h⟩ := bind_eq_ok.mp h
    cases h

section Record

variable {α β : Type} {narrow : Row β} {wide : Row α} {S : wide.Slots → narrow.Slots → Prop}
  {R : α → β → Prop}

def Row.readArray {α : Type} (row : Row α) (room : Nat) : Reader α := fun s =>
  row.readElements room true s >>= fun r => readClose r.2 >>= fun s => .ok (r.1, s)

def Row.readObject {α : Type} (row : Row α) (room : Nat) : Reader α := fun s =>
  readMembers (row.readMember room) (s.length + 1) true row.empty s >>= fun r =>
    row.ofSlots r.1 >>= fun a => .ok (a, r.2)

theorem Row.Narrows.readArray (h : narrow.Narrows wide S R) (room : Nat) :
    Json.Narrows (narrow.readArray room) (wide.readArray room) R := by
  have hend : Commutes R (fun b s => readClose s >>= fun s => .ok (b, s))
      (fun a s => readClose s >>= fun s => .ok (a, s)) R := by
    intro a s b t
    constructor
    · rintro ⟨b, hab, hread⟩
      obtain ⟨s, hclose, hread⟩ := bind_eq_ok.mp hread
      cases hread
      exact ⟨a, bind_eq_ok.mpr ⟨t, hclose, rfl⟩, hab⟩
    · rintro ⟨a, hread, hab⟩
      obtain ⟨s, hclose, hread⟩ := bind_eq_ok.mp hread
      cases hread
      exact ⟨b, hab, bind_eq_ok.mpr ⟨t, hclose, rfl⟩⟩
  exact (h.elements room true).bind hend

/-- The slots of both rows are empty before the first member, in step after every member, and
filled alike after the last. -/
theorem Row.Narrows.readObject (h : narrow.Narrows wide S R) (room : Nat) :
    Json.Narrows (narrow.readObject room) (wide.readObject room) R := by
  have hslots : Commutes S (fun slots s => narrow.ofSlots slots >>= fun b => .ok (b, s))
      (fun slots s => wide.ofSlots slots >>= fun a => .ok (a, s)) R := by
    intro slots s b t
    constructor
    · rintro ⟨slots', hslots, hread⟩
      obtain ⟨b, hb, hread⟩ := bind_eq_ok.mp hread
      cases hread
      obtain ⟨a, ha, hab⟩ := (h.ofSlots slots _).mp ⟨slots', hslots, hb⟩
      exact ⟨a, bind_eq_ok.mpr ⟨a, ha, rfl⟩, hab⟩
    · rintro ⟨a, hread, hab⟩
      obtain ⟨a, ha, hread⟩ := bind_eq_ok.mp hread
      cases hread
      obtain ⟨slots', hslots, hb⟩ := (h.ofSlots slots b).mpr ⟨a, ha, hab⟩
      exact ⟨slots', hslots, bind_eq_ok.mpr ⟨b, hb, rfl⟩⟩
  intro s b t
  have hall := (Commutes.readMembers (h.member room) (s.length + 1) true).bind hslots
  refine Iff.trans ?_ (hall wide.empty s b t)
  constructor
  · exact fun hread => ⟨narrow.empty, (h.empty _).mpr rfl, hread⟩
  · rintro ⟨slots, hempty, hread⟩
    cases (h.empty slots).mp hempty
    exact hread

theorem Shape.read_record {α : Type} (row : Row α) (room : Nat) :
    (Shape.record row).read room = fun s =>
      match skipBlanks s with
      | [] => .error .truncated
      | c :: s =>
        if c = 0x5B then room.casesOn (.error .malformed) fun room => row.readArray room s
        else if c = 0x7B then room.casesOn (.error .malformed) fun room => row.readObject room s
        else readOther (c :: s) := by
  funext s
  rw [Shape.read]
  dsimp only
  cases skipBlanks s with
  | nil => rfl
  | cons c s => cases room <;> rfl

/-- A record is read alike from an object, in any order of its members, and from an array. -/
theorem Row.Narrows.record (h : narrow.Narrows wide S R) :
    (Shape.record narrow).Narrows (.record wide) R := by
  have hrefused : ∀ (x : Except ReadError (β × List UInt8)) (y : Except ReadError (α × List UInt8))
      (b : β) (t : List UInt8), (∀ r, x ≠ .ok r) → (∀ r, y ≠ .ok r) →
      (x = .ok (b, t) ↔ ∃ a, y = .ok (a, t) ∧ R a b) := fun x y b t hx hy =>
    iff_of_false (hx _) fun ⟨_, ha, _⟩ => hy _ ha
  intro room s b t
  rw [Shape.read_record, Shape.read_record]
  dsimp only
  cases skipBlanks s with
  | nil => exact hrefused _ _ b t (fun _ => nofun) (fun _ => nofun)
  | cons c s =>
    dsimp only
    by_cases hbracket : c = 0x5B
    · rw [if_pos hbracket, if_pos hbracket]
      cases room with
      | zero => exact hrefused _ _ b t (fun _ => nofun) (fun _ => nofun)
      | succ room => exact h.readArray room s b t
    · rw [if_neg hbracket, if_neg hbracket]
      by_cases hbrace : c = 0x7B
      · rw [if_pos hbrace, if_pos hbrace]
        cases room with
        | zero => exact hrefused _ _ b t (fun _ => nofun) (fun _ => nofun)
        | succ room => exact h.readObject room s b t
      · rw [if_neg hbrace, if_neg hbrace]
        exact hrefused _ _ b t (readOther_ne_ok _) (readOther_ne_ok _)

end Record

namespace Shape

variable {α β γ : Type} {narrow : Shape β} {wide : Shape α} {R : α → β → Prop}

theorem narrows_refl (shape : Shape α) : shape.Narrows shape Eq := fun _ => Json.narrows_refl _

theorem Narrows.congr {Q : α → β → Prop} (h : narrow.Narrows wide R) (hQ : ∀ a b, R a b ↔ Q a b) :
    narrow.Narrows wide Q := by
  intro room s b t
  simp only [← hQ]
  exact h room s b t

theorem Narrows.refine (h : narrow.Narrows wide R) (check : β → Except ReadError γ)
    (forget : γ → β) :
    (Shape.refine narrow check forget).Narrows wide fun a c => ∃ b, R a b ∧ check b = .ok c := by
  intro room s c t
  rw [read]
  constructor
  · intro hread
    obtain ⟨⟨b, s₁⟩, hb, hread⟩ := bind_eq_ok.mp hread
    obtain ⟨c, hc, hread⟩ := bind_eq_ok.mp hread
    cases hread
    obtain ⟨a, ha, hab⟩ := (h room s b t).mp hb
    exact ⟨a, ha, b, hab, hc⟩
  · rintro ⟨a, ha, b, hab, hc⟩
    have hb := (h room s b t).mpr ⟨a, ha, hab⟩
    exact bind_eq_ok.mpr ⟨_, hb, bind_eq_ok.mpr ⟨c, hc, rfl⟩⟩

theorem Narrows.checked {δ : Type} {Q : γ → δ → Prop} {check : β → Except ReadError δ}
    {check' : α → Except ReadError γ} (h : narrow.Narrows wide R)
    (hcheck : ∀ a d, (∃ b, R a b ∧ check b = .ok d) ↔ ∃ c, check' a = .ok c ∧ Q c d)
    (forget : δ → β) (forget' : γ → α) :
    (Shape.refine narrow check forget).Narrows (.refine wide check' forget') Q := by
  intro room s d t
  refine (h.refine check forget room s d t).trans ?_
  rw [read]
  constructor
  · rintro ⟨a, ha, hd⟩
    obtain ⟨c, hc, hcd⟩ := (hcheck a d).mp hd
    exact ⟨c, bind_eq_ok.mpr ⟨_, ha, bind_eq_ok.mpr ⟨c, hc, rfl⟩⟩, hcd⟩
  · rintro ⟨c, hread, hcd⟩
    obtain ⟨⟨a, s₁⟩, ha, hread⟩ := bind_eq_ok.mp hread
    obtain ⟨c, hc, hread⟩ := bind_eq_ok.mp hread
    cases hread
    exact ⟨a, ha, (hcheck a d).mpr ⟨c, hc, hcd⟩⟩

theorem Narrows.list (h : narrow.Narrows wide R) :
    (Shape.list narrow).Narrows (.list wide) (List.Forall₂ R) := by
  intro room s l t
  have hrefused : ∀ (x : Except ReadError (List β × List UInt8))
      (y : Except ReadError (List α × List UInt8)), (∀ r, x ≠ .ok r) → (∀ r, y ≠ .ok r) →
      (x = .ok (l, t) ↔ ∃ l', y = .ok (l', t) ∧ List.Forall₂ R l' l) := fun x y hx hy =>
    iff_of_false (hx _) fun ⟨_, hl, _⟩ => hy _ hl
  rw [read, read]
  dsimp only
  cases skipBlanks s with
  | nil => exact hrefused _ _ (fun _ => nofun) (fun _ => nofun)
  | cons c s =>
    dsimp only
    by_cases hbracket : c ≠ 0x5B
    · rw [if_pos hbracket, if_pos hbracket]
      exact hrefused _ _ (readOther_ne_ok _) (readOther_ne_ok _)
    · rw [if_neg hbracket, if_neg hbracket]
      cases room with
      | zero => exact hrefused _ _ (fun _ => nofun) (fun _ => nofun)
      | succ room => exact (h room).readItems (s.length + 1) true s l t

theorem finish_eq_ok {r : α × List UInt8} {a : α} :
    finish r = .ok a ↔ r.1 = a ∧ skipBlanks r.2 = [] := by
  obtain ⟨a', t⟩ := r
  unfold finish
  dsimp only
  split_ifs with hend
  · exact ⟨fun h => ⟨Except.ok.inj h, hend⟩, fun h => congrArg _ h.1⟩
  · exact ⟨nofun, fun h => absurd h.2 hend⟩

theorem parse_eq_ok {shape : Shape α} {s : Octets} {a : α} :
    shape.parse s = .ok a ↔ ∃ t, shape.read maxDepth s = .ok (a, t) ∧ skipBlanks t = [] := by
  rw [parse, bind_eq_ok]
  constructor
  · rintro ⟨⟨a', t⟩, hread, hfinish⟩
    obtain ⟨rfl, ht⟩ := finish_eq_ok.mp hfinish
    exact ⟨t, hread, ht⟩
  · rintro ⟨t, hread, ht⟩
    exact ⟨(a, t), hread, finish_eq_ok.mpr ⟨rfl, ht⟩⟩

/-- A whole text is accepted exactly if it is accepted under the wide shape, with a value that
passes. -/
theorem Narrows.parse_eq_ok (h : narrow.Narrows wide R) {s : Octets} {b : β} :
    narrow.parse s = .ok b ↔ ∃ a, wide.parse s = .ok a ∧ R a b := by
  simp only [Shape.parse_eq_ok]
  constructor
  · rintro ⟨t, hread, ht⟩
    obtain ⟨a, ha, hab⟩ := (h maxDepth s b t).mp hread
    exact ⟨a, ⟨t, ha, ht⟩, hab⟩
  · rintro ⟨a, ⟨t, ha, ht⟩, hab⟩
    exact ⟨t, (h maxDepth s b t).mpr ⟨a, ha, hab⟩, ht⟩

end Shape
end DeviceLink.Json
