import SchemaTypes.Proofs.Schema.Numbering
import SchemaTypes.Schema.Loader

/-!
# How schemas are read

A schema object is read keyword by keyword (`read_object`), and what is read of a value is said
along the values that are read as schemas below it (`Subvalue`, `schema_induction`).

The ways in which a value can have been read are listed once (`WasRead`), so that what holds of all
that is read is a matter of these cases.

Two things do. A node gets the number at which reading begins, so that within it properties stand in
the order of their numbers (`ordered_read`). And apart from numbers nothing depends on where reading
begins (`alike_read`).
-/

namespace SchemaTypes.Schema

/-! ## Readers -/

namespace Reader

variable {α β γ δ : Type} {x y : Reader α} {f : α → Reader β}

theorem bind_of_ok {n m : Nat} {a : α} (h : x n = .ok (a, m)) (f : α → Reader β) :
    (x >>= f) n = f a m := by
  change Except.bind (x n) _ = _
  rw [h]
  rfl

theorem bind_of_error {n : Nat} {e : LoadError} (h : x n = .error e) (f : α → Reader β) :
    (x >>= f) n = .error e := by
  change Except.bind (x n) _ = _
  rw [h]
  rfl

/-- Two readers that get a value both get one. -/
theorem of_bind_eq_ok {n next : Nat} {b : β} (h : (x >>= f) n = .ok (b, next)) :
    ∃ a m, x n = .ok (a, m) ∧ f a m = .ok (b, next) := by
  cases hx : x n with
  | error e =>
    rw [bind_of_error hx] at h
    cases h
  | ok r =>
    rw [bind_of_ok hx] at h
    exact ⟨r.1, r.2, rfl, h⟩

/-- A reader whose value is changed gets one to change. -/
theorem of_map_eq_ok {g : α → β} {n next : Nat} {b : β} (h : (g <$> x) n = .ok (b, next)) :
    ∃ a, x n = .ok (a, next) ∧ b = g a := by
  rw [map_eq_pure_bind] at h
  obtain ⟨a, m, ha, h⟩ := of_bind_eq_ok h
  cases h
  exact ⟨a, ha, rfl⟩

/-- A list that is read has been read element by element. -/
theorem of_cons_eq_ok {z : Reader (List β)} {g : α → β} {n next : Nat} {bs : List β}
    (h : (do let a ← x; return g a :: (← z) : Reader (List β)) n = .ok (bs, next)) :
    ∃ a m rest, x n = .ok (a, m) ∧ z m = .ok (rest, next) ∧ bs = g a :: rest := by
  obtain ⟨a, m, ha, h⟩ := of_bind_eq_ok h
  obtain ⟨rest, last, hrest, h⟩ := of_bind_eq_ok h
  cases h
  exact ⟨a, m, rest, ha, hrest, rfl⟩

/-- A value that is gone on with takes no number. -/
theorem of_liftM_eq_ok {value : Except LoadError α} {n next : Nat} {a : α}
    (h : (liftM value : Reader α) n = .ok (a, next)) : value = .ok a ∧ next = n := by
  cases value with
  | error e => cases h
  | ok b =>
    cases h
    exact ⟨rfl, rfl⟩

/-- What a reader makes of a document has a property, together with where it begins and ends. -/
def Ensures (x : Reader α) (post : Nat → α → Nat → Prop) : Prop :=
  ∀ n a next, x n = .ok (a, next) → post n a next

theorem ensures_pure {a : α} {post : Nat → α → Nat → Prop} (h : ∀ n, post n a n) :
    Ensures (pure a : Reader α) post := by
  intro n b next hread
  cases hread
  exact h n

theorem ensures_throw (e : LoadError) (post : Nat → α → Nat → Prop) :
    Ensures (throw e : Reader α) post := by
  intro n a next hread
  cases hread

/-- Two readers make the same of a document up to a map, wherever they begin. -/
def Alike (g : α → β) (x y : Reader α) : Prop :=
  ∀ m n, (fun r ↦ g r.1) <$> x m = (fun r ↦ g r.1) <$> y n

theorem alike_pure {g : α → β} {a b : α} (h : g a = g b) :
    Alike g (pure a : Reader α) (pure b) :=
  fun _ _ ↦ congrArg Except.ok h

theorem alike_throw (g : α → β) (e : LoadError) :
    Alike g (throw e : Reader α) (throw e) :=
  fun _ _ ↦ rfl

theorem alike_liftM (g : α → β) (value : Except LoadError α) :
    Alike g (liftM value : Reader α) (liftM value) := by
  intro m n
  cases value <;> rfl

theorem Alike.bind {g : α → γ} {h : β → δ} {f' : α → Reader β} (hx : Alike g x y)
    (hf : ∀ a b, g a = g b → Alike h (f a) (f' b)) : Alike h (x >>= f) (y >>= f') := by
  intro m n
  have hsame := hx m n
  cases hxm : x m with
  | error e =>
    cases hyn : y n with
    | error e' =>
      rw [hxm, hyn] at hsame
      cases hsame
      rw [bind_of_error hxm, bind_of_error hyn]
    | ok r =>
      rw [hxm, hyn] at hsame
      cases hsame
  | ok r =>
    cases hyn : y n with
    | error e =>
      rw [hxm, hyn] at hsame
      cases hsame
    | ok r' =>
      rw [hxm, hyn] at hsame
      rw [bind_of_ok hxm, bind_of_ok hyn]
      exact hf r.1 r'.1 (Except.ok.inj hsame) r.2 r'.2

theorem Alike.some {g : α → γ} (h : Alike g x y) :
    Alike (Option.map g) (some <$> x) (some <$> y) := by
  rw [map_eq_pure_bind, map_eq_pure_bind]
  exact h.bind fun a b hab ↦ alike_pure (congrArg Option.some hab)

end Reader

/-! ## Schema objects -/

/-- Reads the properties of a schema object. -/
def propertiesReader (members : List (String × Json)) (location : String) :
    Reader (List (String × Schema)) :=
  match members.lookup "properties" with
  | some (.object named) => readProperties named location
  | some value => if value.isVoid then pure [] else throw (.mismatch (.lacks value.kind "items"))
  | none => pure []

/-- Reads the single schema under a key of a schema object. -/
def partReader (members : List (String × Json)) (key location : String) :
    Reader (Option Schema) :=
  match members.lookup key with
  | some value => some <$> read value location
  | none => pure none

/-- Reads the branches under a key of a schema object. -/
def branchesReader (members : List (String × Json)) (key location : String) :
    Reader (List Schema) :=
  match members.lookup key with
  | some (.list branches) => readBranches branches location 0
  | some value => if value.isVoid then pure [] else throw (.notList location)
  | none => pure []

/-- A schema object is read keyword by keyword. -/
theorem read_object {members : List (String × Json)} (href : members.lookup "$ref" = none)
    (location : String) :
    read (.object members) location = (do
      let keywords ← Keywords.read members location
      let properties ← propertiesReader members location
      let items ← partReader members "items" (location ++ "/items")
      let allOf ← branchesReader members "allOf" (location ++ "/allOf")
      let oneOf ← branchesReader members "oneOf" (location ++ "/oneOf")
      let anyOf ← branchesReader members "anyOf" (location ++ "/anyOf")
      let negated ← partReader members "not" (location ++ "/not")
      return .node keywords properties items allOf oneOf anyOf negated) := by
  rw [read]
  simp only [href]
  refine congrArg _ (funext fun keywords ↦ ?_)
  refine congr (congrArg _ ?_) (funext fun properties ↦ ?_)
  · unfold propertiesReader
    generalize members.lookup "properties" = found
    rcases found with _ | value
    · rfl
    · cases value <;> rfl
  refine congr (congrArg _ ?_) (funext fun items ↦ ?_)
  · unfold partReader
    generalize members.lookup "items" = found
    cases found <;> rfl
  refine congr (congrArg _ ?_) (funext fun allOf ↦ ?_)
  · unfold branchesReader
    generalize members.lookup "allOf" = found
    rcases found with _ | value
    · rfl
    · cases value <;> rfl
  refine congr (congrArg _ ?_) (funext fun oneOf ↦ ?_)
  · unfold branchesReader
    generalize members.lookup "oneOf" = found
    rcases found with _ | value
    · rfl
    · cases value <;> rfl
  refine congr (congrArg _ ?_) (funext fun anyOf ↦ ?_)
  · unfold branchesReader
    generalize members.lookup "anyOf" = found
    rcases found with _ | value
    · rfl
    · cases value <;> rfl
  refine congrArg (· >>= _) ?_
  unfold partReader
  generalize members.lookup "not" = found
  cases found <;> rfl

/-- A reference says nothing but what it refers to, and a void one nothing at all. -/
theorem read_object_of_ref {members : List (String × Json)} {ref : Json}
    (href : members.lookup "$ref" = some ref) (location : String) :
    read (.object members) location = (fun n ↦ .ok
      ((match ref with
        | .null => leaf (.blank n)
        | ref => reference ref n), n + 1)) := by
  rw [read]
  simp only [href]
  cases ref <;> rfl

/-- Nothing but truth values and objects is read as a schema. -/
theorem read_of_not_schema {value : Json} (hbool : ∀ b, value ≠ .bool b)
    (hobject : ∀ members, value ≠ .object members) (location : String) :
    read value location = throw (.notObject location value) := by
  rw [read]
  · exact hbool
  · exact hobject

/-! ## What has been read -/

theorem line_readKeywords {members : List (String × Json)} {location : String} {n next : Nat}
    {keywords : Keywords} (hread : Keywords.read members location n = .ok (keywords, next)) :
    keywords.line = n ∧ next = n + 1 := by
  rw [Keywords.read] at hread
  obtain ⟨line, _, hline, hread⟩ := Reader.of_bind_eq_ok hread
  obtain ⟨declared, _, hdeclared, hread⟩ := Reader.of_bind_eq_ok hread
  obtain ⟨required, _, hrequired, hread⟩ := Reader.of_bind_eq_ok hread
  cases hline
  obtain ⟨-, rfl⟩ := Reader.of_liftM_eq_ok hdeclared
  obtain ⟨-, rfl⟩ := Reader.of_liftM_eq_ok hrequired
  cases hread
  exact ⟨rfl, rfl⟩

/-- What a schema object is read as is no reference. -/
theorem ref_readKeywords {members : List (String × Json)} {location : String} {n next : Nat}
    {keywords : Keywords} (hread : Keywords.read members location n = .ok (keywords, next)) :
    keywords.ref = none := by
  rw [Keywords.read] at hread
  obtain ⟨line, _, -, hread⟩ := Reader.of_bind_eq_ok hread
  obtain ⟨declared, _, -, hread⟩ := Reader.of_bind_eq_ok hread
  obtain ⟨required, _, -, hread⟩ := Reader.of_bind_eq_ok hread
  cases hread
  rfl

/-- A schema object that is no reference has been read keyword by keyword, each from the number that
the one before it has come to. -/
inductive ObjectRead (members : List (String × Json)) (location : String) (n : Nat) :
    Schema → Nat → Prop
  | intro {keywords : Keywords} {properties : List (String × Schema)}
      {items negated : Option Schema} {allOf oneOf anyOf : List Schema}
      {m₁ m₂ m₃ m₄ m₅ next : Nat} :
      Keywords.read members location n = .ok (keywords, n + 1) →
      propertiesReader members location (n + 1) = .ok (properties, m₁) →
      partReader members "items" (location ++ "/items") m₁ = .ok (items, m₂) →
      branchesReader members "allOf" (location ++ "/allOf") m₂ = .ok (allOf, m₃) →
      branchesReader members "oneOf" (location ++ "/oneOf") m₃ = .ok (oneOf, m₄) →
      branchesReader members "anyOf" (location ++ "/anyOf") m₄ = .ok (anyOf, m₅) →
      partReader members "not" (location ++ "/not") m₅ = .ok (negated, next) →
      ObjectRead members location n (.node keywords properties items allOf oneOf anyOf negated) next

/-- How a value has been read: as a node that says nothing, a reference or a schema object. -/
inductive WasRead (location : String) (n : Nat) : Json → Schema → Nat → Prop
  | bool (b : Bool) : WasRead location n (.bool b) (leaf (.blank n)) (n + 1)
  | void {members : List (String × Json)} : members.lookup "$ref" = some .null →
      WasRead location n (.object members) (leaf (.blank n)) (n + 1)
  | reference {members : List (String × Json)} {ref : Json} :
      members.lookup "$ref" = some ref → ref ≠ .null →
        WasRead location n (.object members) (reference ref n) (n + 1)
  | object {members : List (String × Json)} {s : Schema} {next : Nat} :
      members.lookup "$ref" = none → ObjectRead members location n s next →
        WasRead location n (.object members) s next

theorem objectRead_of_read {members : List (String × Json)} {location : String} {n next : Nat}
    {s : Schema} (href : members.lookup "$ref" = none)
    (hread : read (.object members) location n = .ok (s, next)) :
    ObjectRead members location n s next := by
  rw [read_object href] at hread
  obtain ⟨keywords, m₀, hkeywords, hread⟩ := Reader.of_bind_eq_ok hread
  obtain ⟨properties, m₁, hproperties, hread⟩ := Reader.of_bind_eq_ok hread
  obtain ⟨items, m₂, hitems, hread⟩ := Reader.of_bind_eq_ok hread
  obtain ⟨allOf, m₃, hallOf, hread⟩ := Reader.of_bind_eq_ok hread
  obtain ⟨oneOf, m₄, honeOf, hread⟩ := Reader.of_bind_eq_ok hread
  obtain ⟨anyOf, m₅, hanyOf, hread⟩ := Reader.of_bind_eq_ok hread
  obtain ⟨negated, m₆, hnegated, hread⟩ := Reader.of_bind_eq_ok hread
  cases hread
  obtain ⟨-, rfl⟩ := line_readKeywords hkeywords
  exact .intro hkeywords hproperties hitems hallOf honeOf hanyOf hnegated

/-- **Whatever is read has been read in one of these ways.** -/
theorem wasRead_of_read {value : Json} {location : String} {n next : Nat} {s : Schema}
    (hread : read value location n = .ok (s, next)) : WasRead location n value s next := by
  cases value with
  | bool b =>
    rw [read] at hread
    cases hread
    exact .bool b
  | object members =>
    cases href : members.lookup "$ref" with
    | none => exact .object href (objectRead_of_read href hread)
    | some ref =>
      rw [read_object_of_ref href] at hread
      cases ref with
      | null =>
        cases hread
        exact .void href
      | _ =>
        cases hread
        refine .reference href ?_
        rintro ⟨⟩
  | _ =>
    rw [read_of_not_schema] at hread
    · cases hread
    · rintro _ ⟨⟩
    · rintro _ ⟨⟩

/-! ## Values below a schema object -/

/-- The values that are read as the schemas right below a schema object. -/
inductive Subvalue (members : List (String × Json)) (sub : Json) : Prop
  | property {name : String} {named : List (String × Json)} :
      members.lookup "properties" = some (.object named) → (name, sub) ∈ named →
      Subvalue members sub
  | part {key : String} :
      key ∈ ["items", "not"] → members.lookup key = some sub → Subvalue members sub
  | branch {key : String} {branches : List Json} :
      key ∈ ["allOf", "oneOf", "anyOf"] → members.lookup key = some (.list branches) →
        sub ∈ branches → Subvalue members sub

theorem Subvalue.sizeOf_lt {members : List (String × Json)} {sub : Json}
    (h : Subvalue members sub) : sizeOf sub < sizeOf (Json.object members) := by
  cases h with
  | property hfound hmem =>
    have hlt := List.sizeOf_lt_of_mem hmem
    have hfound := Json.sizeOf_lt_of_lookup hfound
    simp only [Prod.mk.sizeOf_spec, Json.object.sizeOf_spec] at hlt hfound ⊢
    omega
  | part _ hfound =>
    have hfound := Json.sizeOf_lt_of_lookup hfound
    rw [Json.object.sizeOf_spec]
    omega
  | branch _ hfound hmem =>
    have hlt := List.sizeOf_lt_of_mem hmem
    have hfound := Json.sizeOf_lt_of_lookup hfound
    simp only [Json.list.sizeOf_spec, Json.object.sizeOf_spec] at hlt hfound ⊢
    omega

/-- What holds of a value whenever it holds of the values that are read as schemas right below it
holds of every value. -/
theorem schema_induction {P : Json → Prop}
    (step : ∀ value, (∀ members, value = .object members → ∀ sub, Subvalue members sub → P sub) →
      P value) (value : Json) : P value :=
  step value fun _ _hmembers sub _hsub ↦ schema_induction step sub
termination_by sizeOf value
decreasing_by
  rw [_hmembers]
  exact _hsub.sizeOf_lt

/-! ## Readings from different positions -/

section Alike

open Reader

/-- Properties without positions, as a map of them. -/
def withoutPositions (properties : List (String × Schema)) : List (String × Schema) :=
  properties.map fun (name, s) ↦ (name, s.unnumbered)

theorem alike_readKeywords (members : List (String × Json)) (location : String) :
    Alike (fun k ↦ { k with line := 0 }) (Keywords.read members location)
      (Keywords.read members location) := by
  have hnext : Alike (fun _ ↦ ()) Reader.next Reader.next := fun _ _ ↦ rfl
  refine hnext.bind fun m n _ ↦ (alike_liftM id _).bind ?_
  rintro declared _ rfl
  refine (alike_liftM id _).bind ?_
  rintro required _ rfl
  exact alike_pure rfl

theorem alike_readProperties {members : List (String × Json)}
    (h : ∀ m ∈ members, ∀ location, Alike unnumbered (read m.2 location) (read m.2 location))
    (location : String) :
    Alike withoutPositions (readProperties members location) (readProperties members location) := by
  induction members with
  | nil =>
    rw [readProperties]
    exact alike_pure rfl
  | cons m rest ih =>
    rw [readProperties]
    have hrest := ih fun m hm ↦ h m (List.mem_cons_of_mem _ hm)
    refine (h m List.mem_cons_self _).bind fun s t hst ↦ hrest.bind fun ss ts hrest ↦ ?_
    refine alike_pure ?_
    change (m.1, s.unnumbered) :: withoutPositions ss = (m.1, t.unnumbered) :: withoutPositions ts
    rw [hst, hrest]

theorem alike_readBranches {values : List Json}
    (h : ∀ v ∈ values, ∀ location, Alike unnumbered (read v location) (read v location))
    (location : String) (index : Nat) :
    Alike (List.map unnumbered) (readBranches values location index)
      (readBranches values location index) := by
  induction values generalizing index with
  | nil =>
    rw [readBranches]
    exact alike_pure rfl
  | cons v rest ih =>
    rw [readBranches]
    have hrest := ih (fun v hv ↦ h v (List.mem_cons_of_mem _ hv)) (index + 1)
    refine (h v List.mem_cons_self _).bind fun s t hst ↦ hrest.bind fun ss ts hrest ↦ ?_
    refine alike_pure ?_
    rw [List.map_cons, List.map_cons, hst, hrest]

variable {members : List (String × Json)}
  (h : ∀ sub, Subvalue members sub →
    ∀ location, Alike unnumbered (read sub location) (read sub location))

include h

theorem alike_propertiesReader (location : String) :
    Alike withoutPositions (propertiesReader members location)
      (propertiesReader members location) := by
  unfold propertiesReader
  split
  · next named hnamed =>
    exact alike_readProperties (fun m hm ↦ h m.2 (.property hnamed hm)) location
  · split
    · exact alike_pure rfl
    · exact alike_throw _ _
  · exact alike_pure rfl

theorem alike_partReader {key : String} (hkey : key ∈ ["items", "not"]) (location : String) :
    Alike (Option.map unnumbered) (partReader members key location)
      (partReader members key location) := by
  unfold partReader
  split
  · next value hvalue => exact (h value (.part hkey hvalue) location).some
  · exact alike_pure rfl

theorem alike_branchesReader {key : String} (hkey : key ∈ ["allOf", "oneOf", "anyOf"])
    (location : String) :
    Alike (List.map unnumbered) (branchesReader members key location)
      (branchesReader members key location) := by
  unfold branchesReader
  split
  · next branches hbranches =>
    exact alike_readBranches (fun v hv ↦ h v (.branch hkey hbranches hv)) location 0
  · split
    · exact alike_pure rfl
    · exact alike_throw _ _
  · exact alike_pure rfl

omit h

/-- **Reading does not depend on where it begins**, apart from positions. -/
theorem alike_read (value : Json) (location : String) :
    Alike unnumbered (read value location) (read value location) := by
  induction value using schema_induction generalizing location with
  | step value ih =>
    cases value with
    | bool b =>
      rw [read]
      refine Alike.bind (g := fun _ ↦ ()) (fun _ _ ↦ rfl) fun m n _ ↦ alike_pure ?_
      rw [unnumbered_eq, unnumbered_eq]
      rfl
    | object members =>
      cases href : members.lookup "$ref" with
      | some ref =>
        rw [read_object_of_ref href]
        intro m n
        refine congrArg Except.ok ?_
        dsimp only
        split <;> rw [unnumbered_eq, unnumbered_eq] <;> rfl
      | none =>
        have hsub := ih members rfl
        rw [read_object href]
        refine (alike_readKeywords members location).bind fun k k' hk ↦ ?_
        refine (alike_propertiesReader hsub _).bind fun ps ps' hps ↦ ?_
        refine (alike_partReader hsub (by simp) _).bind fun items items' hitems ↦ ?_
        refine (alike_branchesReader hsub (by simp) _).bind fun allOf allOf' hallOf ↦ ?_
        refine (alike_branchesReader hsub (by simp) _).bind fun oneOf oneOf' honeOf ↦ ?_
        refine (alike_branchesReader hsub (by simp) _).bind fun anyOf anyOf' hanyOf ↦ ?_
        refine (alike_partReader hsub (by simp) _).bind fun negated negated' hnegated ↦ ?_
        refine alike_pure ?_
        rw [unnumbered_eq, unnumbered_eq]
        exact congr (congr (congr (congr (congr (congr (congrArg node hk) hps) hitems) hallOf)
          honeOf) hanyOf) hnegated
    | _ =>
      rw [read_of_not_schema]
      · exact alike_throw _ _
      · rintro _ ⟨⟩
      · rintro _ ⟨⟩

end Alike

/-! ## Numbers of what is read -/

theorem ordered_of_children {s : Schema}
    (hproperties : s.properties.Pairwise fun a b ↦ a.2.line ≤ b.2.line)
    (hchildren : ∀ child ∈ s.children, child.Ordered) : s.Ordered := by
  intro t ht
  cases ht with
  | self => exact hproperties
  | step hchild ht => exact hchildren _ hchild t ht

theorem ordered_leaf (keywords : Keywords) : (leaf keywords).Ordered :=
  ordered_of_children .nil fun child hchild ↦ by cases hchild

section Rules

open Reader

variable {members : List (String × Json)} {location : String}

theorem ensures_propertiesReader {post : Nat → List (String × Schema) → Nat → Prop}
    (hnamed : ∀ named, members.lookup "properties" = some (.object named) →
      Ensures (readProperties named location) post)
    (hnone : (∀ named, members.lookup "properties" ≠ some (.object named)) → ∀ n, post n [] n) :
    Ensures (propertiesReader members location) post := by
  unfold propertiesReader
  split
  · next named hfound => exact hnamed named hfound
  · next value hother hfound =>
    split
    · refine ensures_pure (hnone fun named hnamed ↦ ?_)
      exact hother named (Option.some.inj (hfound.symm.trans hnamed))
    · exact ensures_throw _ _
  · next hfound => exact ensures_pure (hnone fun named ↦ by simp [hfound])

theorem ensures_partReader {key : String} {post : Nat → Option Schema → Nat → Prop}
    (hsome : ∀ value, members.lookup key = some value →
      Ensures (read value location) fun n s next ↦ post n (some s) next)
    (hnone : members.lookup key = none → ∀ n, post n none n) :
    Ensures (partReader members key location) post := by
  unfold partReader
  split
  · next value hfound =>
    intro n part next hread
    obtain ⟨s, hs, rfl⟩ := of_map_eq_ok hread
    exact hsome value hfound n s next hs
  · next hfound => exact ensures_pure (hnone hfound)

theorem ensures_branchesReader {key : String} {post : Nat → List Schema → Nat → Prop}
    (hlist : ∀ values, members.lookup key = some (.list values) →
      Ensures (readBranches values location 0) post)
    (hnone : (∀ values, members.lookup key ≠ some (.list values)) → ∀ n, post n [] n) :
    Ensures (branchesReader members key location) post := by
  unfold branchesReader
  split
  · next values hfound => exact hlist values hfound
  · next value hother hfound =>
    split
    · refine ensures_pure (hnone fun values hvalues ↦ ?_)
      exact hother values (Option.some.inj (hfound.symm.trans hvalues))
    · exact ensures_throw _ _
  · next hfound => exact ensures_pure (hnone fun values ↦ by simp [hfound])

end Rules

/-- A reader gives a schema the number at which it begins, and numbers what is below it further. -/
def Reader.Places (x : Reader Schema) : Prop :=
  x.Ensures fun n s next ↦ s.line = n ∧ n < next ∧ s.Ordered

/-- A reader reads schemas in which properties are in order. -/
def Reader.Arranges (x : Reader (List Schema)) : Prop :=
  x.Ensures fun n branches next ↦ n ≤ next ∧ ∀ s ∈ branches, s.Ordered

/-- A reader reads properties that are in order, also within each of them. -/
def Reader.ArrangesProperties (x : Reader (List (String × Schema))) : Prop :=
  x.Ensures fun n properties next ↦ n ≤ next ∧ (∀ p ∈ properties, n ≤ p.2.line ∧ p.2.Ordered) ∧
    properties.Pairwise fun a b ↦ a.2.line ≤ b.2.line

open Reader

theorem arranges_readProperties {members : List (String × Json)}
    (h : ∀ m ∈ members, ∀ location, (read m.2 location).Places) (location : String) :
    ArrangesProperties (readProperties members location) := by
  induction members with
  | nil =>
    rw [readProperties]
    exact ensures_pure fun n ↦ ⟨Nat.le_refl n, List.forall_mem_nil _, .nil⟩
  | cons m rest ih =>
    rw [readProperties]
    intro n properties next hread
    obtain ⟨s, middle, more, hs, hmore, rfl⟩ := of_cons_eq_ok hread
    obtain ⟨hline, hlt, hordered⟩ := h m List.mem_cons_self _ n s middle hs
    obtain ⟨hle, hall, hpairwise⟩ :=
      ih (fun m hm ↦ h m (List.mem_cons_of_mem _ hm)) middle more next hmore
    have hbehind : ∀ p ∈ more, n ≤ p.2.line := fun p hp ↦ by
      have hmiddle := (hall p hp).1
      omega
    refine ⟨by omega, ?_, List.pairwise_cons.mpr ⟨?_, hpairwise⟩⟩
    · refine List.forall_mem_cons.mpr ⟨⟨Nat.le_of_eq hline.symm, hordered⟩, fun p hp ↦ ?_⟩
      exact ⟨hbehind p hp, (hall p hp).2⟩
    · intro p hp
      rw [hline]
      exact hbehind p hp

theorem arranges_readBranches {values : List Json}
    (h : ∀ v ∈ values, ∀ location, (read v location).Places) (location : String) (index : Nat) :
    Arranges (readBranches values location index) := by
  induction values generalizing index with
  | nil =>
    rw [readBranches]
    exact ensures_pure fun n ↦ ⟨Nat.le_refl n, List.forall_mem_nil _⟩
  | cons v rest ih =>
    rw [readBranches]
    intro n branches next hread
    obtain ⟨s, middle, more, hs, hmore, rfl⟩ := of_cons_eq_ok hread
    obtain ⟨-, hlt, hordered⟩ := h v List.mem_cons_self _ n s middle hs
    obtain ⟨hle, hall⟩ :=
      ih (fun v hv ↦ h v (List.mem_cons_of_mem _ hv)) (index + 1) middle more next hmore
    exact ⟨by omega, List.forall_mem_cons.mpr ⟨hordered, hall⟩⟩

section Places

variable {members : List (String × Json)}
  (h : ∀ sub, Subvalue members sub → ∀ location, (read sub location).Places)

include h

theorem arranges_propertiesReader (location : String) :
    ArrangesProperties (propertiesReader members location) := by
  refine ensures_propertiesReader (fun named hnamed ↦ ?_) fun _ ↦ ?_
  · exact arranges_readProperties (fun m hm ↦ h m.2 (.property hnamed hm)) location
  · exact fun n ↦ ⟨Nat.le_refl n, List.forall_mem_nil _, .nil⟩

theorem arranges_partReader {key : String} (hkey : key ∈ ["items", "not"]) (location : String) :
    Ensures (partReader members key location)
      fun n part next ↦ n ≤ next ∧ ∀ s, part = some s → s.Ordered := by
  refine ensures_partReader (fun value hvalue n s next hread ↦ ?_) fun _ n ↦ ?_
  · obtain ⟨-, hlt, hordered⟩ := h value (.part hkey hvalue) location n s next hread
    refine ⟨Nat.le_of_lt hlt, fun t ht ↦ ?_⟩
    cases ht
    exact hordered
  · exact ⟨Nat.le_refl n, fun s hs ↦ by cases hs⟩

theorem arranges_branchesReader {key : String} (hkey : key ∈ ["allOf", "oneOf", "anyOf"])
    (location : String) : Arranges (branchesReader members key location) := by
  refine ensures_branchesReader (fun values hvalues ↦ ?_) fun _ ↦ ?_
  · exact arranges_readBranches (fun v hv ↦ h v (.branch hkey hvalues hv)) location 0
  · exact fun n ↦ ⟨Nat.le_refl n, List.forall_mem_nil _⟩

end Places

/-- **Properties stand in the order of their numbers** within whatever is read, and a node has the
number at which its reading begins. -/
theorem ordered_read (value : Json) (location : String) : (read value location).Places := by
  induction value using schema_induction generalizing location with
  | step value ih =>
    intro n s next hread
    cases wasRead_of_read hread with
    | bool b => exact ⟨rfl, Nat.lt_succ_self n, ordered_leaf _⟩
    | void => exact ⟨rfl, Nat.lt_succ_self n, ordered_leaf _⟩
    | reference => exact ⟨rfl, Nat.lt_succ_self n, ordered_leaf _⟩
    | object _ hobject =>
      have hsub := ih _ rfl
      obtain ⟨hkeywords, hproperties, hitems, hallOf, honeOf, hanyOf, hnegated⟩ := hobject
      obtain ⟨hle₁, hproperties, hpairwise⟩ :=
        arranges_propertiesReader hsub _ _ _ _ hproperties
      obtain ⟨hle₂, hitems⟩ := arranges_partReader hsub (by simp) _ _ _ _ hitems
      obtain ⟨hle₃, hallOf⟩ := arranges_branchesReader hsub (by simp) _ _ _ _ hallOf
      obtain ⟨hle₄, honeOf⟩ := arranges_branchesReader hsub (by simp) _ _ _ _ honeOf
      obtain ⟨hle₅, hanyOf⟩ := arranges_branchesReader hsub (by simp) _ _ _ _ hanyOf
      obtain ⟨hle₆, hnegated⟩ := arranges_partReader hsub (by simp) _ _ _ _ hnegated
      refine ⟨(line_readKeywords hkeywords).1, by omega, ordered_of_children hpairwise ?_⟩
      intro child hchild
      rcases mem_children_iff.mp hchild with ⟨name, hmem⟩ | hmem | hmem | hmem | hmem | hmem
      · exact (hproperties _ hmem).2
      · exact hitems child hmem
      · exact hallOf child hmem
      · exact honeOf child hmem
      · exact hanyOf child hmem
      · exact hnegated child hmem

/-! ## References that are read -/

/-- A reference that is read says nothing but what it refers to. -/
theorem eq_reference_of_read {value ref : Json} {location : String} {n next : Nat} {s : Schema}
    (hread : read value location n = .ok (s, next)) (href : s.ref = some ref) :
    s = reference ref s.line := by
  cases wasRead_of_read hread with
  | bool b => cases href
  | void => cases href
  | reference =>
    cases href
    rfl
  | object _ hobject =>
    obtain ⟨hkeywords, -, -, -, -, -, -⟩ := hobject
    rw [Schema.ref, Schema.keywords, ref_readKeywords hkeywords] at href
    cases href

end SchemaTypes.Schema
