import SelectPlan.Proofs.Documents.Faithful
import SelectPlan.Selection.Basic

/-!
Documents of the parts that hold no leaves: names, types, literals, columns and settings.  They
differ for different values.
-/

namespace SelectPlan

variable {b : Backend}

instance : Legible Bool := ⟨fun _ _ => Json.alike_bool⟩

instance : Legible String := ⟨fun _ _ => Json.alike_string⟩

instance : NeverNull String := ⟨nofun⟩

theorem alike_integer_iff (x y : Int) : (Json.integer x).Alike (.integer y) ↔ x = y := by
  simp [Json.integer]

instance : Legible UInt16 where
  alike_iff x y := by
    refine (alike_integer_iff x.toNat y.toNat).trans ?_
    rw [Int.ofNat_inj, UInt16.toNat_inj]

instance : Legible UInt32 where
  alike_iff x y := by
    refine (alike_integer_iff x.toNat y.toNat).trans ?_
    rw [Int.ofNat_inj, UInt32.toNat_inj]

instance : Legible UInt64 where
  alike_iff x y := by
    refine (alike_integer_iff x.toNat y.toNat).trans ?_
    rw [Int.ofNat_inj, UInt64.toNat_inj]

instance : NeverNull UInt64 := ⟨nofun⟩

instance : Legible Int64 where
  alike_iff x y := by
    refine (alike_integer_iff x.toInt y.toInt).trans ?_
    rw [Int64.toInt_inj]

instance : Legible JsonValue where
  alike_iff := by
    rintro ⟨x, hx⟩ ⟨y, hy⟩
    change x.sorted = y.sorted ↔ _
    rw [hx, hy, JsonValue.mk.injEq]

/-! Names and types -/

instance {kind : NameKind} : Legible (Name kind) where
  alike_iff := by
    rintro ⟨s⟩ ⟨t⟩
    change Json.Alike (.string _) (.string _) ↔ _
    simp

instance : Legible QualifiedName where
  alike_iff := by
    rintro ⟨s, m⟩ ⟨t, n⟩
    simp +instances [QualifiedName.instHasJson]

/-- A backend names its tables in one way, so the two ways need no tag. -/
instance : Legible (EntityName b) where
  alike_iff x y := by
    cases x with
    | qualified m flat =>
        cases y with
        | qualified n _ => exact (alike_json_iff m n).trans (by simp)
        | path t nested => exact absurd nested flat
    | path s nested =>
        cases y with
        | qualified n flat => exact absurd nested flat
        | path t _ => exact (alike_json_iff s t).trans (by simp)

/-- Types that a backend knows and types that an agent declares are not on one backend. -/
instance : Legible (ScalarType b) where
  alike_iff x y := by
    change x.toJson.Alike y.toJson ↔ x = y
    induction x generalizing y with
    | builtin name known =>
        cases y with
        | declared other agent => exact absurd known (by simp [agent, Backend.scalarNames])
        | _ => simp [ScalarType.toJson]
    | array element postgres ih => cases y <;> simp [ScalarType.toJson, ih]
    | other name fixed => cases y <;> simp [ScalarType.toJson]
    | declared name agent =>
        cases y with
        | builtin other known => exact absurd known (by simp [agent, Backend.scalarNames])
        | _ => simp [ScalarType.toJson]

instance : Legible (SourceConfig b) where
  alike_iff x y := by
    cases x <;> cases y
    case postgres.postgres | msSql.msSql | bigQuery.bigQuery | mySql.mySql |
        dataConnector.dataConnector =>
      simp +instances [instHasJsonSourceConfig]
    -- the configurations of two backends
    all_goals exfalso; simp_all [Backend.isPostgresFamily]

/-! Literals and where they are used -/

instance : Legible Scalar where
  alike_iff x y := by
    cases x <;> cases y <;> simp +instances [instHasJsonScalar]

instance : Legible (ColumnType b) where
  alike_iff x y := by
    cases x <;> cases y <;> simp +instances [instHasJsonColumnType]

instance : Legible (ColumnValue b) where
  alike_iff := by
    rintro ⟨s, v⟩ ⟨t, w⟩
    simp +instances [instHasJsonColumnValue]

instance : Legible Provenance where
  alike_iff x y := by
    cases x <;> cases y <;> simp +instances [instHasJsonProvenance]

instance : Legible (Unprepared b) where
  alike_iff x y := by
    cases x <;> cases y <;> simp +instances [instHasJsonUnprepared]

/-! Columns and settings of a query -/

instance : Legible (ColumnInfo b) where
  alike_iff := by
    rintro ⟨m, s, p⟩ ⟨n, t, q⟩
    simp +instances [ColumnInfo.instHasJson]

instance : Legible RelationshipKind where
  alike_iff x y := by
    cases x <;> cases y <;> simp +instances [instHasJsonRelationshipKind]

instance : Legible ComparisonOperator where
  alike_iff x y := by
    cases x <;> cases y <;> simp +instances [instHasJsonComparisonOperator]

instance : Legible JsonStep where
  alike_iff x y := by
    cases x <;> cases y <;> simp +instances [instHasJsonJsonStep]

instance : Legible JsonPath where
  alike_iff := by
    rintro ⟨s⟩ ⟨t⟩
    simp +instances [instHasJsonJsonPath]

instance : NeverNull JsonPath := ⟨nofun⟩

instance : Legible Direction where
  alike_iff x y := by
    cases x <;> cases y <;> simp +instances [Direction.instHasJson, Direction.name]

instance : NeverNull Direction := ⟨nofun⟩

instance : Legible NullsOrder where
  alike_iff x y := by
    cases x <;> cases y <;> simp +instances [NullsOrder.instHasJson, NullsOrder.name]

instance : NeverNull NullsOrder := ⟨nofun⟩

instance : Legible BoundKind where
  alike_iff x y := by
    cases x <;> cases y <;> simp +instances [instHasJsonBoundKind]

instance : Legible PageSlice where
  alike_iff x y := by
    cases x <;> cases y <;> simp +instances [instHasJsonPageSlice]

instance : NeverNull PageSlice where
  json_ne_null x := by
    cases x <;> exact nofun

instance : Legible PageInfo where
  alike_iff x y := by
    cases x <;> cases y <;> simp +instances [instHasJsonPageInfo]

instance : Legible NumberRendering where
  alike_iff x y := by
    cases x <;> cases y <;> simp +instances [instHasJsonNumberRendering]

instance : Legible NamingConvention where
  alike_iff x y := by
    cases x <;> cases y <;> simp +instances [NamingConvention.instHasJson]

instance : NeverNull NamingConvention where
  json_ne_null x := by
    cases x <;> exact nofun

/-! Settings of a selection -/

instance : Legible RowShape where
  alike_iff x y := by
    cases x <;> cases y <;> simp +instances [instHasJsonRowShape]

instance : Legible (JoinField b) where
  alike_iff x y := by
    cases x <;> cases y <;> simp +instances [instHasJsonJoinField]

end SelectPlan
