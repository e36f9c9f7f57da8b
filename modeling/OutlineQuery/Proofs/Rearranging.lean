import OutlineQuery.Expression.Json

/-! Changes of JSON that do not change what is read from it. The fields of an object may stand in
another order, a record may have fields that it does not know, and an optional field that is null
may be missing. What such changes make of some JSON is told by the known fields alone. -/

namespace OutlineQuery.Json

inductive Kind where
  | leaf | value | function | predicate | comparison | slice | step | path | location | expression
  | items (kind : Kind)
deriving DecidableEq

namespace Kind

def fields : Kind → List (String × Kind × Bool)
  | .function => [("name", .leaf, false), ("arg", .location, false)]
  | .comparison => [("left", .value, false), ("relation", .leaf, true),
    ("modifier", .leaf, false), ("right", .value, true)]
  | .slice => [("start", .leaf, true), ("end", .leaf, true), ("range", .leaf, false)]
  | .step => [("axis", .leaf, false), ("type", .leaf, false), ("predicate", .predicate, false),
    ("slice", .slice, true)]
  | .path => [("absolute", .leaf, false), ("steps", .items .step, false)]
  | _ => []

def contents : Kind → List (String × Kind)
  | .value => [("literal", .leaf), ("getAttribute", .leaf), ("function", .function)]
  | .predicate => [("not", .predicate), ("and", .items .predicate), ("or", .items .predicate),
    ("comparison", .comparison)]
  | .location => [("path", .path), ("union", .items .location), ("except", .items .location),
    ("intersect", .items .location)]
  | .expression => [("function", .function), ("location", .location)]
  | _ => []

def field? (k : Kind) (name : String) : Option (Kind × Bool) := k.fields.lookup name

def content? (k : Kind) (name : String) : Option Kind := k.contents.lookup name

def IsRecord (k : Kind) : Prop := k.fields ≠ []

theorem isRecord_of_field? {k : Kind} {name : String} {field : Kind × Bool}
    (h : k.field? name = some field) : k.IsRecord := by
  intro hnone
  rw [field?, hnone] at h
  cases h

theorem IsRecord.content? {k : Kind} (h : k.IsRecord) (name : String) : k.content? name = none := by
  cases k <;> first | exact absurd rfl h | rfl

end Kind

inductive Altered : Kind → Json → Json → Prop where
  | permute {k : Kind} {fields fields' : List (String × Json)} :
    fields.Perm fields' → Altered k (.obj fields) (.obj fields')
  | add {k : Kind} {name : String} {value : Json} {before behind : List (String × Json)} :
    k.IsRecord → k.field? name = none →
      Altered k (.obj (before ++ behind)) (.obj (before ++ (name, value) :: behind))
  | drop {k inner : Kind} {name : String} {before behind : List (String × Json)} :
    k.field? name = some (inner, true) →
      Altered k (.obj (before ++ (name, .null) :: behind)) (.obj (before ++ behind))
  | field {k inner : Kind} {o : Bool} {name : String} {value value' : Json}
      {before behind : List (String × Json)} :
    k.field? name = some (inner, o) → Altered inner value value' →
      Altered k (.obj (before ++ (name, value) :: behind))
        (.obj (before ++ (name, value') :: behind))
  | content {k inner : Kind} {name : String} {value value' : Json} :
    k.content? name = some inner → Altered inner value value' →
      Altered k (.obj [(name, value)]) (.obj [(name, value')])
  | head {k : Kind} {item item' : Json} {items : List Json} :
    Altered k item item' → Altered (.items k) (.arr (item :: items)) (.arr (item' :: items))
  | tail {k : Kind} {item : Json} {items items' : List Json} :
    Altered (.items k) (.arr items) (.arr items') →
      Altered (.items k) (.arr (item :: items)) (.arr (item :: items'))

def named (name : String) (fields : List (String × Json)) : List (String × Json) :=
  fields.filter (·.1 = name)

@[simp] theorem named_append (name : String) (fields fields' : List (String × Json)) :
    named name (fields ++ fields') = named name fields ++ named name fields' :=
  List.filter_append ..

theorem named_cons_self (name : String) (value : Json) (fields : List (String × Json)) :
    named name ((name, value) :: fields) = (name, value) :: named name fields := by
  simp [named]

theorem named_cons_of_ne {name other : String} (h : other ≠ name) (value : Json)
    (fields : List (String × Json)) :
    named name ((other, value) :: fields) = named name fields := by
  simp [named, h]

theorem lookup_eq_named (name : String) (fields : List (String × Json)) :
    lookup name fields = (named name fields).head?.map (·.2) := by
  induction fields with
  | nil => rfl
  | cons field fields ih =>
    obtain ⟨key, value⟩ := field
    by_cases hkey : key = name
    · simp [lookup, named, hkey]
    · simpa [lookup, named, hkey] using ih

def Once (name : String) (fields : List (String × Json)) : Prop := (named name fields).length ≤ 1

theorem once_of_nodup {fields : List (String × Json)} (h : (fields.map (·.1)).Nodup)
    (name : String) : Once name fields := by
  have hsame : (named name fields).map (·.1) = List.replicate (named name fields).length name := by
    rw [List.eq_replicate_iff]
    simp [named]
  have hnodup : ((named name fields).map (·.1)).Nodup :=
    (List.filter_sublist.map _).nodup h
  rw [hsame, List.nodup_replicate] at hnodup
  exact hnodup

/-- Fields that stand once can be told apart in whatever order. -/
theorem Once.named_perm {name : String} {fields fields' : List (String × Json)}
    (h : Once name fields) (hperm : fields.Perm fields') :
    named name fields' = named name fields := by
  have hnamed : (named name fields').Perm (named name fields) := (hperm.filter _).symm
  match hfound : named name fields with
  | [] => exact (hfound ▸ hnamed).eq_nil
  | [field] => exact List.perm_singleton.mp (hfound ▸ hnamed)
  | _ :: _ :: _ => simp [Once, hfound] at h

section Alone
variable {name : String} {before behind : List (String × Json)}

/-- There is no other field of that name. -/
theorem Once.alone {value : Json} (h : Once name (before ++ (name, value) :: behind)) :
    named name (before ++ behind) = [] := by
  apply List.eq_nil_of_length_eq_zero
  rw [Once, named_append, named_cons_self] at h
  simp only [List.length_append, List.length_cons, named_append] at h ⊢
  omega

theorem named_alone (value : Json) (h : named name (before ++ behind) = []) :
    named name (before ++ (name, value) :: behind) = [(name, value)] := by
  rw [named_append, List.append_eq_nil_iff] at h
  rw [named_append, named_cons_self, h.1, h.2, List.nil_append]

theorem once_alone (value : Json) (h : named name (before ++ behind) = []) :
    Once name (before ++ (name, value) :: behind) := by
  rw [Once, named_alone value h]
  exact Nat.le_refl 1

theorem lookup_alone (value : Json) (h : named name (before ++ behind) = []) :
    lookup name (before ++ (name, value) :: behind) = some value := by
  rw [lookup_eq_named, named_alone value h]
  rfl

end Alone

def IsAtom : Json → Prop
  | .arr _ | .obj _ => False
  | _ => True

mutual

/-- The second is the first but for the order of its fields, those that are not known and those
that are null. -/
inductive Alike : Kind → Json → Json → Prop where
  | atom {k : Kind} {j : Json} : j.IsAtom → Alike k j j
  | record {k : Kind} {fields fields' : List (String × Json)} :
    k.IsRecord → (∀ name inner, k.field? name = some inner → Once name fields') →
      (∀ name inner o, k.field? name = some (inner, o) →
        FieldAlike inner o (lookup name fields) (lookup name fields')) →
      Alike k (.obj fields) (.obj fields')
  | variant {k inner : Kind} {name : String} {value value' : Json} :
    k.content? name = some inner → Alike inner value value' →
      Alike k (.obj [(name, value)]) (.obj [(name, value')])
  | nil {k : Kind} : Alike (.items k) (.arr []) (.arr [])
  | cons {k : Kind} {item item' : Json} {items items' : List Json} :
    Alike k item item' → Alike (.items k) (.arr items) (.arr items') →
      Alike (.items k) (.arr (item :: items)) (.arr (item' :: items'))

inductive FieldAlike : Kind → Bool → Option Json → Option Json → Prop where
  | kept {k : Kind} {o : Bool} {value value' : Json} :
    Alike k value value' → FieldAlike k o (some value) (some value')
  | dropped {k : Kind} : FieldAlike k true (some .null) none

end

def Fits (k : Kind) (known fields : List (String × Json)) : Prop :=
  ∀ name inner o, k.field? name = some (inner, o) →
    Once name fields ∧ FieldAlike inner o (lookup name known) (lookup name fields)

namespace Fits
variable {k : Kind} {known fields fields' : List (String × Json)}

theorem alike (hk : k.IsRecord) (h : Fits k known fields) : Alike k (.obj known) (.obj fields) :=
  .record hk (fun name (inner, o) hname => (h name inner o hname).1)
    (fun name inner o hname => (h name inner o hname).2)

/-- Only the fields of one name have changed. -/
theorem change (name : String) (h : Fits k known fields)
    (hothers : ∀ other, name ≠ other → named other fields' = named other fields)
    (hname : ∀ inner o, k.field? name = some (inner, o) →
      Once name fields' ∧ FieldAlike inner o (lookup name known) (lookup name fields')) :
    Fits k known fields' := by
  intro other inner o hother
  by_cases heq : name = other
  · subst heq
    exact hname inner o hother
  · rw [Once, lookup_eq_named other fields', hothers other heq, ← lookup_eq_named]
    exact h other inner o hother

end Fits

namespace Alike
variable {k inner : Kind} {origin : Json} {name : String} {value value' : Json}
  {fields fields' before behind : List (String × Json)}

theorem record_cases {j : Json} (h : Alike k origin j) (hk : k.IsRecord) :
    (origin.IsAtom ∧ j = origin) ∨
      ∃ known fields, origin = .obj known ∧ j = .obj fields ∧ Fits k known fields := by
  cases h with
  | atom hatom => exact .inl ⟨hatom, rfl⟩
  | record _ honce hfieldsAlike =>
    exact .inr ⟨_, _, rfl, rfl, fun name inner o hname =>
      ⟨honce name _ hname, hfieldsAlike name inner o hname⟩⟩
  | variant hname _ =>
    rw [hk.content?] at hname
    cases hname
  | nil | cons _ _ => exact absurd rfl hk

theorem fits (h : Alike k origin (.obj fields)) (hk : k.IsRecord) :
    ∃ known, origin = .obj known ∧ Fits k known fields := by
  obtain ⟨hatom, rfl⟩ | ⟨known, _, rfl, hfields, hfits⟩ := h.record_cases hk
  · cases hatom
  · cases hfields
    exact ⟨known, rfl, hfits⟩

theorem eq_null (h : Alike k origin .null) : origin = .null := by
  cases h with
  | atom _ => rfl

theorem permute (h : Alike k origin (.obj fields)) (hperm : fields.Perm fields') :
    Alike k origin (.obj fields') := by
  by_cases hk : k.IsRecord
  · obtain ⟨known, rfl, hfits⟩ := h.fits hk
    refine Fits.alike hk fun name inner o hname => ?_
    obtain ⟨honce, halike⟩ := hfits name inner o hname
    rw [Once, lookup_eq_named name fields', honce.named_perm hperm, ← lookup_eq_named]
    exact ⟨honce, halike⟩
  · cases h with
    | atom hatom => cases hatom
    | record hrecord _ _ => exact absurd hrecord hk
    | variant hname hvalue =>
      obtain rfl := List.singleton_perm.mp hperm
      exact .variant hname hvalue

theorem add (h : Alike k origin (.obj (before ++ behind))) (hk : k.IsRecord)
    (hname : k.field? name = none) :
    Alike k origin (.obj (before ++ (name, value) :: behind)) := by
  obtain ⟨known, rfl, hfits⟩ := h.fits hk
  apply Fits.alike hk
  apply hfits.change name
  · intro other hother
    simp [named_cons_of_ne hother]
  · simp [hname]

/-- Another value of a known field, or none, is judged by what the field has been alike to. -/
theorem change {o : Bool} (h : Alike k origin (.obj (before ++ (name, value) :: behind)))
    (hname : k.field? name = some (inner, o))
    (hothers : ∀ other, name ≠ other →
      named other fields' = named other (before ++ (name, value) :: behind))
    (hfield : named name (before ++ behind) = [] → ∀ original,
      FieldAlike inner o original (some value) →
        Once name fields' ∧ FieldAlike inner o original (lookup name fields')) :
    Alike k origin (.obj fields') := by
  have hk := Kind.isRecord_of_field? hname
  obtain ⟨known, rfl, hfits⟩ := h.fits hk
  obtain ⟨honce, halike⟩ := hfits name inner o hname
  have halone := honce.alone
  rw [lookup_alone _ halone] at halike
  refine Fits.alike hk (hfits.change name hothers fun inner' o' hname' => ?_)
  obtain ⟨rfl, rfl⟩ : inner = inner' ∧ o = o' := by simpa [hname] using hname'
  exact hfield halone _ halike

theorem drop (h : Alike k origin (.obj (before ++ (name, .null) :: behind)))
    (hname : k.field? name = some (inner, true)) : Alike k origin (.obj (before ++ behind)) := by
  refine h.change hname (fun other hother => ?_) fun halone original halike => ?_
  · simp [named_cons_of_ne hother]
  · rw [Once, lookup_eq_named name (_ ++ _), halone]
    refine ⟨Nat.zero_le 1, ?_⟩
    cases halike with
    | kept hvalue =>
      rw [hvalue.eq_null]
      exact .dropped

theorem field {o : Bool} (h : Alike k origin (.obj (before ++ (name, value) :: behind)))
    (hname : k.field? name = some (inner, o))
    (hvalue : ∀ origin, Alike inner origin value → Alike inner origin value') :
    Alike k origin (.obj (before ++ (name, value') :: behind)) := by
  refine h.change hname (fun other hother => ?_) fun halone original halike => ?_
  · simp [named_cons_of_ne hother]
  · rw [lookup_alone value' halone]
    refine ⟨once_alone value' halone, ?_⟩
    cases halike with
    | kept halike => exact .kept (hvalue _ halike)

/-- What is alike stays so when it changes. -/
theorem altered {j j' : Json} (ha : Altered k j j') (h : Alike k origin j) : Alike k origin j' := by
  induction ha generalizing origin with
  | permute hperm => exact h.permute hperm
  | add hk hname => exact h.add hk hname
  | drop hname => exact h.drop hname
  | field hname _ ih => exact h.field hname fun _ hvalue => ih hvalue
  | content hname _ ih =>
    cases h with
    | atom hatom => cases hatom
    | record hk _ _ =>
      rw [hk.content?] at hname
      cases hname
    | variant hname' hvalue =>
      obtain rfl := Option.some.inj (hname'.symm.trans hname)
      exact .variant hname (ih hvalue)
  | head _ ih =>
    cases h with
    | atom hatom => cases hatom
    | cons hitem hitems => exact .cons (ih hitem) hitems
  | tail _ ih =>
    cases h with
    | atom hatom => cases hatom
    | cons hitem hitems => exact .cons hitem (ih hitems)

end Alike
end OutlineQuery.Json
