import OutlineQuery.Proofs.Rearranging
import Mathlib.Data.List.Forall2
import Mathlib.Logic.Relation

/-! Reading the JSON of an expression, in whatever order its fields stand, and whether or not those
are there that are null. -/

namespace OutlineQuery
open Json

namespace Json

variable {k : Kind} {j value : Json}

theorem Alike.leaf (h : Alike .leaf value j) : j = value := by
  cases h with
  | atom _ => rfl
  | record hk _ _ => exact absurd rfl hk
  | variant hname _ => cases hname

theorem Alike.ne_null {fields : List (String × Json)} (h : Alike k (.obj fields) j) :
    j ≠ .null := by
  intro hnull
  subst hnull
  cases h.eq_null

theorem Alike.fields {known : List (String × Json)} (h : Alike k (.obj known) j)
    (hk : k.IsRecord) : ∃ fields, j = .obj fields ∧ Fits k known fields := by
  obtain ⟨hatom, -⟩ | ⟨_, fields, hknown, rfl, hfits⟩ := h.record_cases hk
  · cases hatom
  · cases hknown
    exact ⟨fields, rfl, hfits⟩

theorem Alike.content {name : String} (h : Alike k (.obj [(name, value)]) j) (inner : Kind)
    (hname : k.content? name = some inner) :
    ∃ value', j = .obj [(name, value')] ∧ Alike inner value value' := by
  cases h with
  | atom hatom => cases hatom
  | record hk _ _ =>
    rw [hk.content?] at hname
    cases hname
  | variant hname' hvalue =>
    obtain rfl := Option.some.inj (hname'.symm.trans hname)
    exact ⟨_, rfl, hvalue⟩

theorem Alike.items {items : List Json} (h : Alike (.items k) (.arr items) j) :
    ∃ items', j = .arr items' := by
  cases h with
  | atom hatom => cases hatom
  | nil | cons _ _ => exact ⟨_, rfl⟩

theorem Alike.pair {left right : Json} (h : Alike (.items k) (.arr [left, right]) j) :
    ∃ left' right', j = .arr [left', right'] ∧ Alike k left left' ∧ Alike k right right' := by
  cases h with
  | atom hatom => cases hatom
  | cons hleft hrest =>
    cases hrest with
    | atom hatom => cases hatom
    | cons hright hnone =>
      cases hnone with
      | atom hatom => cases hatom
      | nil => exact ⟨_, _, rfl, hleft, hright⟩

/-- A variant with two items in it, neither of which is as deep. -/
theorem Alike.both {name : String} {left right : Json} {n : Nat}
    (h : Alike k (.obj [(name, .arr [left, right])]) j) (inner : Kind)
    (hname : k.content? name = some (.items inner)) (hn : j.depth < n + 1) :
    ∃ left' right', j = .obj [(name, .arr [left', right'])] ∧
      (Alike inner left left' ∧ left'.depth < n) ∧ Alike inner right right' ∧ right'.depth < n := by
  obtain ⟨content, rfl, hcontent⟩ := h.content (.items inner) hname
  obtain ⟨left', right', rfl, hleft, hright⟩ := hcontent.pair
  simp only [depth, depthFields, depthItems] at hn
  exact ⟨left', right', rfl, ⟨hleft, by omega⟩, hright, by omega⟩

theorem depth_lt_of_lookup {name : String} {fields : List (String × Json)}
    (h : lookup name fields = some value) : value.depth < (Json.obj fields).depth := by
  induction fields with
  | nil => cases h
  | cons field fields ih =>
    obtain ⟨key, found⟩ := field
    rw [lookup] at h
    simp only [depth, depthFields] at ih ⊢
    split at h
    · cases h
      omega
    · have hlt := ih h
      omega

theorem FieldAlike.required {field : Option Json} (h : FieldAlike k false (some value) field) :
    ∃ value', field = some value' ∧ Alike k value value' := by
  cases h with
  | kept hvalue => exact ⟨_, rfl, hvalue⟩

theorem FieldAlike.leaf {field : Option Json} (h : FieldAlike .leaf false (some value) field) :
    field = some value := by
  obtain ⟨value', rfl, hvalue⟩ := h.required
  rw [hvalue.leaf]

theorem FieldAlike.optional_leaf {α : Type} {read : Json → Option α} {field : Option Json}
    (h : FieldAlike .leaf true (some value) field) :
    optional read field = optional read (some value) := by
  cases h with
  | kept hvalue => rw [hvalue.leaf]
  | dropped => rfl

/-- A field that may have been left out because it was null. -/
theorem FieldAlike.optional {α : Type} {read : Json → Option α} {write : α → Json} {a : Option α}
    {field : Option Json} (h : FieldAlike k true (some (.ofOption write a)) field)
    (hwrite : ∀ b, ∃ fields, write b = .obj fields)
    (hread : ∀ b value, a = some b → field = some value → Alike k (write b) value →
      read value = some b) :
    Json.optional read field = some a := by
  cases a with
  | none =>
    cases h with
    | kept hvalue =>
      cases hvalue with
      | atom _ => rfl
    | dropped => rfl
  | some b =>
    obtain ⟨fields, hfields⟩ := hwrite b
    generalize hwritten : some (Json.ofOption write (some b)) = written at h
    cases h with
    | kept hvalue =>
      cases hwritten
      have halike := hread b _ rfl rfl hvalue
      rw [Json.ofOption, hfields] at hvalue
      have hnull := hvalue.ne_null
      rw [Json.optional, halike]
      · rfl
      · exact hnull
    | dropped =>
      rw [Json.ofOption, hfields] at hwritten
      cases hwritten

end Json

theorem optional_bound (bound : Option Int64) :
    Json.optional Json.int64? (some (.ofOption (fun n => .int n.toInt) bound)) = some bound := by
  cases bound with
  | none => rfl
  | some n =>
    rw [Json.ofOption, Json.optional, Json.int64?, if_pos ⟨n.minValue_le_toInt, n.toInt_le⟩,
      Int64.ofInt_toInt]
    · rfl
    · simp

theorem Slice.read_alike {s : Slice} {j : Json} (h : Alike .slice s.toJson j) :
    Slice.ofJson? j = some s := by
  obtain ⟨fields, rfl, hfits⟩ := h.fields (List.cons_ne_nil _ _)
  have hstart := (hfits "start" .leaf true (by decide)).2
  have hstop := (hfits "end" .leaf true (by decide)).2
  have hrange := (hfits "range" .leaf false (by decide)).2
  simp only [lookup, String.reduceEq, ↓reduceIte] at hstart hstop hrange
  simp [Slice.ofJson?, record?, hstart.optional_leaf, hstop.optional_leaf, hrange.leaf,
    optional_bound, required, bool?]

theorem Axis.read_name (a : Axis) : ofJson? (.str a.name) = some a := Axis.ofName?_name a

theorem Relation.read_name (r : Relation) : ofJson? (.str r.name) = some r := ofName?_name r

theorem Modifier.read_name (m : Modifier) : ofJson? (.str m.name) = some m := ofName?_name m

theorem RowType.read_name (t : RowType) : ofJson? (.str t.name) = some t := ofName?_name t

theorem optional_relation (relation : Option Relation) :
    Json.optional Relation.ofJson? (some (.ofOption (.str ·.name) relation)) = some relation := by
  cases relation with
  | none => rfl
  | some r => simp [Json.ofOption, Json.optional, r.read_name]

theorem Value.optionToJson_eq (value : Option Value) :
    Value.optionToJson value = .ofOption Value.toJson value := by
  cases value <;> simp [Value.optionToJson, Json.ofOption]

theorem Value.toJson_obj (v : Value) : ∃ fields, v.toJson = .obj fields := by
  cases v <;> exact ⟨_, by rw [toJson]⟩

mutual

theorem Value.read_alike (v : Value) {n : Nat} {j : Json} (h : Alike .value v.toJson j)
    (hn : j.depth < n) : Value.read n j = some v := by
  match v, n with
  | _, 0 => omega
  | .literal text, n + 1 =>
    rw [Value.toJson] at h
    obtain ⟨content, rfl, hcontent⟩ := h.content .leaf (by decide)
    simp [Value.read, variant?, hcontent.leaf, str?]
  | .attribute name, n + 1 =>
    rw [Value.toJson] at h
    obtain ⟨content, rfl, hcontent⟩ := h.content .leaf (by decide)
    simp [Value.read, variant?, hcontent.leaf, str?]
  | .call f, n + 1 =>
    rw [Value.toJson] at h
    obtain ⟨content, rfl, hcontent⟩ := h.content .function (by decide)
    simp only [depth, depthFields] at hn
    simp [Value.read, variant?, f.read_alike hcontent (n := n) (by omega)]

theorem Function.read_alike (f : Function) {n : Nat} {j : Json} (h : Alike .function f.toJson j)
    (hn : j.depth < n) : Function.read n j = some f := by
  match f, n with
  | _, 0 => omega
  | ⟨name, argument⟩, n + 1 =>
    rw [Function.toJson] at h
    obtain ⟨fields, rfl, hfits⟩ := h.fields (List.cons_ne_nil _ _)
    have hname := (hfits "name" .leaf false (by decide)).2
    have hargument := (hfits "arg" .location false (by decide)).2
    simp only [lookup, String.reduceEq, ↓reduceIte] at hname hargument
    obtain ⟨value, hvalue, halike⟩ := hargument.required
    have hdepth := depth_lt_of_lookup hvalue
    simp [Function.read, record?, hname.leaf, required, str?, hvalue,
      argument.read_alike halike (n := n) (by omega)]

theorem Predicate.read_alike (p : Predicate) {n : Nat} {j : Json}
    (h : Alike .predicate p.toJson j) (hn : j.depth < n) : Predicate.read n j = some p := by
  match p, n with
  | _, 0 => omega
  | .any, n + 1 =>
    rw [Predicate.toJson] at h
    cases h with
    | atom _ => simp [Predicate.read, variant?]
  | .not inner, n + 1 =>
    rw [Predicate.toJson] at h
    obtain ⟨content, rfl, hcontent⟩ := h.content .predicate (by decide)
    simp only [depth, depthFields] at hn
    simp [Predicate.read, variant?, inner.read_alike hcontent (n := n) (by omega)]
  | .and left right, n + 1 =>
    rw [Predicate.toJson] at h
    obtain ⟨left', right', rfl, ⟨hleft, hl⟩, hright, hr⟩ := h.both .predicate (by decide) hn
    simp [Predicate.read, variant?, pair?, left.read_alike hleft hl, right.read_alike hright hr]
  | .or left right, n + 1 =>
    rw [Predicate.toJson] at h
    obtain ⟨left', right', rfl, ⟨hleft, hl⟩, hright, hr⟩ := h.both .predicate (by decide) hn
    simp [Predicate.read, variant?, pair?, left.read_alike hleft hl, right.read_alike hright hr]
  | .comparison left relation modifier right, n + 1 =>
    rw [Predicate.toJson] at h
    obtain ⟨content, rfl, hcontent⟩ := h.content .comparison (by decide)
    obtain ⟨fields, rfl, hfits⟩ := hcontent.fields (List.cons_ne_nil _ _)
    have hleft := (hfits "left" .value false (by decide)).2
    have hrelation := (hfits "relation" .leaf true (by decide)).2
    have hmodifier := (hfits "modifier" .leaf false (by decide)).2
    have hright := (hfits "right" .value true (by decide)).2
    simp only [lookup, String.reduceEq, ↓reduceIte] at hleft hrelation hmodifier hright
    obtain ⟨value, hvalue, halike⟩ := hleft.required
    have hdepth := depth_lt_of_lookup hvalue
    simp only [depth, depthFields] at hn hdepth
    rw [Value.optionToJson_eq] at hright
    have hread : Json.optional (Value.read n) (lookup "right" fields) = some right := by
      apply hright.optional Value.toJson_obj
      intro b found hb hfound halike
      have hdepth := depth_lt_of_lookup hfound
      simp only [depth] at hdepth
      subst hb
      exact b.read_alike halike (by omega)
    simp [Predicate.read, variant?, hvalue, required, left.read_alike halike (n := n) (by omega),
      hrelation.optional_leaf, optional_relation, hmodifier.leaf, modifier.read_name, hread]

theorem Step.read_alike (s : Step) {n : Nat} {j : Json} (h : Alike .step s.toJson j)
    (hn : j.depth < n) : Step.read n j = some s := by
  match s, n with
  | _, 0 => omega
  | ⟨axis, type, predicate, slice⟩, n + 1 =>
    rw [Step.toJson] at h
    obtain ⟨fields, rfl, hfits⟩ := h.fields (List.cons_ne_nil _ _)
    have haxis := (hfits "axis" .leaf false (by decide)).2
    have htype := (hfits "type" .leaf false (by decide)).2
    have hpredicate := (hfits "predicate" .predicate false (by decide)).2
    have hslice := (hfits "slice" .slice true (by decide)).2
    simp only [lookup, String.reduceEq, ↓reduceIte] at haxis htype hpredicate hslice
    obtain ⟨value, hvalue, halike⟩ := hpredicate.required
    have hdepth := depth_lt_of_lookup hvalue
    have hread : Json.optional Slice.ofJson? (lookup "slice" fields) = some slice :=
      hslice.optional (fun b => ⟨_, rfl⟩) fun b found _ _ halike => b.read_alike halike
    simp [Step.read, record?, haxis.leaf, htype.leaf, axis.read_name, type.read_name, required,
      hvalue, predicate.read_alike halike (n := n) (by omega), hread]

theorem Step.list_read_alike (steps : List Step) {n : Nat} {items : List Json}
    (h : Alike (.items .step) (.arr (Step.listToJson steps)) (.arr items))
    (hn : depthItems items < n) : items.mapM (Step.read n) = some steps := by
  match steps with
  | [] =>
    rw [Step.listToJson] at h
    cases h with
    | atom hatom => cases hatom
    | nil => rfl
  | s :: steps =>
    rw [Step.listToJson] at h
    cases h with
    | atom hatom => cases hatom
    | cons hitem hitems =>
      simp only [depthItems] at hn
      simp [s.read_alike hitem (n := n) (by omega),
        Step.list_read_alike steps hitems (n := n) (by omega)]

theorem Path.read_alike (p : Path) {n : Nat} {j : Json} (h : Alike .path p.toJson j)
    (hn : j.depth < n) : Path.read n j = some p := by
  match p, n with
  | _, 0 => omega
  | ⟨absolute, steps⟩, n + 1 =>
    rw [Path.toJson] at h
    obtain ⟨fields, rfl, hfits⟩ := h.fields (List.cons_ne_nil _ _)
    have habsolute := (hfits "absolute" .leaf false (by decide)).2
    have hsteps := (hfits "steps" (.items .step) false (by decide)).2
    simp only [lookup, String.reduceEq, ↓reduceIte] at habsolute hsteps
    obtain ⟨value, hvalue, halike⟩ := hsteps.required
    have hdepth := depth_lt_of_lookup hvalue
    obtain ⟨items, rfl⟩ := halike.items
    simp only [depth] at hdepth hn
    simp [Path.read, record?, habsolute.leaf, hvalue, required, bool?, list?,
      Step.list_read_alike steps halike (n := n) (by omega)]

theorem Location.read_alike (l : Location) {n : Nat} {j : Json} (h : Alike .location l.toJson j)
    (hn : j.depth < n) : Location.read n j = some l := by
  match l, n with
  | _, 0 => omega
  | .path p, n + 1 =>
    rw [Location.toJson] at h
    obtain ⟨content, rfl, hcontent⟩ := h.content .path (by decide)
    simp only [depth, depthFields] at hn
    simp [Location.read, variant?, p.read_alike hcontent (n := n) (by omega)]
  | .union left right, n + 1 =>
    rw [Location.toJson] at h
    obtain ⟨left', right', rfl, ⟨hleft, hl⟩, hright, hr⟩ := h.both .location (by decide) hn
    simp [Location.read, variant?, pair?, left.read_alike hleft hl, right.read_alike hright hr]
  | .except left right, n + 1 =>
    rw [Location.toJson] at h
    obtain ⟨left', right', rfl, ⟨hleft, hl⟩, hright, hr⟩ := h.both .location (by decide) hn
    simp [Location.read, variant?, pair?, left.read_alike hleft hl, right.read_alike hright hr]
  | .intersect left right, n + 1 =>
    rw [Location.toJson] at h
    obtain ⟨left', right', rfl, ⟨hleft, hl⟩, hright, hr⟩ := h.both .location (by decide) hn
    simp [Location.read, variant?, pair?, left.read_alike hleft hl, right.read_alike hright hr]

end

namespace Expression

theorem read_alike (e : Expression) {j : Json} (h : Alike .expression e.toJson j) :
    ofJson? j = some e := by
  cases e with
  | function f =>
    obtain ⟨content, rfl, hcontent⟩ := h.content .function (by decide)
    have hread := f.read_alike hcontent (n := (Json.obj [("function", content)]).depth + 1) (by
      simp only [depth, depthFields]
      omega)
    simp [ofJson?, variant?, hread]
  | location l =>
    obtain ⟨content, rfl, hcontent⟩ := h.content .location (by decide)
    have hread := l.read_alike hcontent (n := (Json.obj [("location", content)]).depth + 1) (by
      simp only [depth, depthFields]
      omega)
    simp [ofJson?, variant?, hread]

end Expression

namespace Json

theorem Kind.fields_nodup (k : Kind) : (k.fields.map (·.1)).Nodup := by
  cases k <;> first | decide | exact List.nodup_nil

def Written (field : String × Json) (known : String × Kind × Bool) : Prop :=
  field.1 = known.1 ∧ Alike known.2.1 field.2 field.2

theorem lookup_of_written {fields : List (String × Json)} {table : List (String × Kind × Bool)}
    (h : List.Forall₂ Written fields table) {name : String} {inner : Kind} {o : Bool}
    (hname : table.lookup name = some (inner, o)) :
    ∃ value, lookup name fields = some value ∧ Alike inner value value := by
  induction h with
  | nil => cases hname
  | @cons field known fields table hfield _ ih =>
    obtain ⟨key, value⟩ := field
    obtain ⟨known, inner', o'⟩ := known
    obtain ⟨hkey, halike⟩ := hfield
    obtain rfl : key = known := hkey
    by_cases heq : name = key
    · subst heq
      rw [List.lookup_cons_self, Option.some.injEq, Prod.mk.injEq] at hname
      exact ⟨value, by simp [lookup], hname.1 ▸ halike⟩
    · rw [List.lookup_cons, beq_false_of_ne heq] at hname
      obtain ⟨value', hvalue', halike'⟩ := ih hname
      exact ⟨value', by simpa [lookup, Ne.symm heq] using hvalue', halike'⟩

theorem Alike.of_written {k : Kind} {fields : List (String × Json)} (hk : k.IsRecord)
    (h : List.Forall₂ Written fields k.fields) : Alike k (.obj fields) (.obj fields) := by
  have hnames : fields.map (·.1) = k.fields.map (·.1) := by
    rw [← List.forall₂_eq_eq_eq, List.forall₂_map_left_iff, List.forall₂_map_right_iff]
    exact h.imp fun _ _ hfield => hfield.1
  apply Fits.alike hk
  intro name inner o hname
  obtain ⟨value, hvalue, halike⟩ := lookup_of_written h hname
  refine ⟨once_of_nodup (hnames ▸ k.fields_nodup) name, ?_⟩
  rw [hvalue]
  exact .kept halike

theorem Alike.of_option {α : Type} {k : Kind} {write : α → Json} {a : Option α}
    (h : ∀ b ∈ a, Alike k (write b) (write b)) :
    Alike k (.ofOption write a) (.ofOption write a) := by
  cases a with
  | none => exact .atom trivial
  | some b => exact h b rfl

theorem Alike.of_pair {k : Kind} {left right : Json} (hleft : Alike k left left)
    (hright : Alike k right right) : Alike (.items k) (.arr [left, right]) (.arr [left, right]) :=
  .cons hleft (.cons hright .nil)

end Json

theorem Slice.alike_self (s : Slice) : Alike .slice s.toJson s.toJson := by
  have hbound : ∀ bound : Option Int64,
      Alike .leaf (.ofOption (fun n : Int64 => .int n.toInt) bound)
        (.ofOption (fun n : Int64 => .int n.toInt) bound) :=
    fun bound => .of_option fun n _ => .atom trivial
  exact .of_written (List.cons_ne_nil _ _) (.cons ⟨rfl, hbound s.start⟩
    (.cons ⟨rfl, hbound s.stop⟩ (.cons ⟨rfl, .atom trivial⟩ .nil)))

mutual

theorem Value.alike_self (v : Value) : Alike .value v.toJson v.toJson := by
  match v with
  | .literal text =>
    rw [Value.toJson]
    exact .variant (by decide : Kind.content? .value _ = some .leaf) (.atom trivial)
  | .attribute name =>
    rw [Value.toJson]
    exact .variant (by decide : Kind.content? .value _ = some .leaf) (.atom trivial)
  | .call f =>
    rw [Value.toJson]
    exact .variant (by decide) f.alike_self

theorem Function.alike_self (f : Function) : Alike .function f.toJson f.toJson := by
  match f with
  | ⟨name, argument⟩ =>
    rw [Function.toJson]
    exact .of_written (List.cons_ne_nil _ _)
      (.cons ⟨rfl, .atom trivial⟩ (.cons ⟨rfl, argument.alike_self⟩ .nil))

theorem Predicate.alike_self (p : Predicate) : Alike .predicate p.toJson p.toJson := by
  match p with
  | .any =>
    rw [Predicate.toJson]
    exact .atom trivial
  | .not inner =>
    rw [Predicate.toJson]
    exact .variant (by decide) inner.alike_self
  | .and left right | .or left right =>
    rw [Predicate.toJson]
    exact .variant (by decide) (.of_pair left.alike_self right.alike_self)
  | .comparison left relation modifier right =>
    rw [Predicate.toJson, Value.optionToJson_eq]
    have hrelation : Alike .leaf (.ofOption (fun r : Relation => .str r.name) relation)
        (.ofOption (fun r : Relation => .str r.name) relation) :=
      .of_option fun r _ => .atom trivial
    have hright : Alike .value (.ofOption Value.toJson right) (.ofOption Value.toJson right) := by
      match right with
      | none => exact .atom trivial
      | some v => exact v.alike_self
    exact .variant (by decide : Kind.content? .predicate _ = some .comparison)
      (.of_written (List.cons_ne_nil _ _) (.cons ⟨rfl, left.alike_self⟩ (.cons ⟨rfl, hrelation⟩
        (.cons ⟨rfl, .atom trivial⟩ (.cons ⟨rfl, hright⟩ .nil)))))

theorem Step.alike_self (s : Step) : Alike .step s.toJson s.toJson := by
  match s with
  | ⟨axis, type, predicate, slice⟩ =>
    rw [Step.toJson]
    have hslice : Alike .slice (.ofOption Slice.toJson slice) (.ofOption Slice.toJson slice) :=
      .of_option fun b _ => b.alike_self
    exact .of_written (List.cons_ne_nil _ _) (.cons ⟨rfl, .atom trivial⟩
      (.cons ⟨rfl, .atom trivial⟩ (.cons ⟨rfl, predicate.alike_self⟩ (.cons ⟨rfl, hslice⟩ .nil))))

theorem Step.list_alike_self (steps : List Step) :
    Alike (.items .step) (.arr (Step.listToJson steps)) (.arr (Step.listToJson steps)) := by
  match steps with
  | [] =>
    rw [Step.listToJson]
    exact .nil
  | s :: steps =>
    rw [Step.listToJson]
    exact .cons s.alike_self (Step.list_alike_self steps)

theorem Path.alike_self (p : Path) : Alike .path p.toJson p.toJson := by
  match p with
  | ⟨absolute, steps⟩ =>
    rw [Path.toJson]
    exact .of_written (List.cons_ne_nil _ _)
      (.cons ⟨rfl, .atom trivial⟩ (.cons ⟨rfl, Step.list_alike_self steps⟩ .nil))

theorem Location.alike_self (l : Location) : Alike .location l.toJson l.toJson := by
  match l with
  | .path p =>
    rw [Location.toJson]
    exact .variant (by decide) p.alike_self
  | .union left right | .except left right | .intersect left right =>
    rw [Location.toJson]
    exact .variant (by decide) (.of_pair left.alike_self right.alike_self)

end

namespace Expression

theorem alike_self (e : Expression) : Alike .expression e.toJson e.toJson := by
  cases e with
  | function f => exact .variant (by decide) f.alike_self
  | location l => exact .variant (by decide) l.alike_self

theorem alike_of_altered {e : Expression} {j : Json}
    (h : Relation.ReflTransGen (Altered .expression) e.toJson j) :
    Alike .expression e.toJson j := by
  induction h with
  | refl => exact e.alike_self
  | tail _ hstep ih => exact .altered hstep ih

/-- An expression is read from what is written for it, and from whatever changes of order, of
unknown fields and of fields that are null make of that. So writing what has been read, and reading
that again, changes nothing. All numbers in the JSON are integers, those in unknown fields too. -/
theorem read_written (e : Expression) :
    ofJson? e.toJson = some e ∧
    (∀ j, Relation.ReflTransGen (Altered .expression) e.toJson j → ofJson? j = some e) ∧
    ∀ j e', ofJson? j = some e' → ofJson? e'.toJson = some e' := by
  have hwritten : ∀ e : Expression, ofJson? e.toJson = some e :=
    fun e => e.read_alike e.alike_self
  refine ⟨hwritten e, ?_, ?_⟩
  · intro j hchanged
    exact e.read_alike (alike_of_altered hchanged)
  · intro j e' _
    exact hwritten e'

def due : Expression :=
  .location (.path ⟨false, [⟨.child, .any, .presence (.attribute "due") .caseSensitive, none⟩]⟩)

def dueJson (comparison : List (String × Json)) : Json :=
  .obj [("location", .obj [("path", .obj [
    ("steps", .arr [.obj [("axis", .str "child"), ("type", .str "any"),
      ("predicate", .obj [("comparison", .obj comparison)]), ("slice", .null)]]),
    ("absolute", .bool false)])])]

theorem altered_dueJson {fields fields' : List (String × Json)}
    (h : Altered .comparison (.obj fields) (.obj fields')) :
    Altered .expression (dueJson fields) (dueJson fields') := by
  have hpredicate : Altered .predicate (.obj [("comparison", .obj fields)])
      (.obj [("comparison", .obj fields')]) := .content (by decide) h
  have hstep : Altered .step _ _ := @Altered.field .step .predicate false "predicate" _ _
    [("axis", .str "child"), ("type", .str "any")] [("slice", .null)] (by decide) hpredicate
  have hpath : Altered .path _ _ := @Altered.field .path (.items .step) false "steps" _ _
    [] [("absolute", .bool false)] (by decide) (@Altered.head .step _ _ [] hstep)
  exact .content (by decide) (.content (by decide : Kind.content? .location _ = some .path) hpath)

theorem due_read : Relation.ReflTransGen (Altered .expression) due.toJson
      (dueJson [("left", .obj [("getAttribute", .str "due")]), ("modifier", .str "caseSensitive"),
        ("until", .int 3), ("right", .null)]) ∧
    ofJson? (dueJson [("left", .obj [("getAttribute", .str "due")]),
      ("modifier", .str "caseSensitive"), ("until", .int 3), ("right", .null)]) = some due := by
  obtain ⟨-, hread, -⟩ := read_written due
  have hpermute : Altered .expression due.toJson
      (dueJson [("left", .obj [("getAttribute", .str "due")]), ("relation", .null),
        ("modifier", .str "caseSensitive"), ("right", .null)]) :=
    .content (by decide) (.content (by decide : Kind.content? .location _ = some .path)
      (.permute (.swap _ _ [])))
  have hdrop : Altered .comparison _ _ := @Altered.drop .comparison .leaf "relation"
    [("left", .obj [("getAttribute", .str "due")])]
    [("modifier", .str "caseSensitive"), ("right", .null)] (by decide)
  have hadd : Altered .comparison _ _ := @Altered.add .comparison "until" (.int 3)
    [("left", .obj [("getAttribute", .str "due")]), ("modifier", .str "caseSensitive")]
    [("right", .null)] (List.cons_ne_nil _ _) (by decide)
  have hchain := ((Relation.ReflTransGen.single hpermute).tail (altered_dueJson hdrop)).tail
    (altered_dueJson hadd)
  exact ⟨hchain, hread _ hchain⟩

end Expression
end OutlineQuery
