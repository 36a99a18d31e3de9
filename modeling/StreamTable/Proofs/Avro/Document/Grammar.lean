/-
Regular grammars: those whose fields have regular names.  The grammar of a regular schema is
regular.
-/
import StreamTable.Avro.Document.Grammar
import StreamTable.Proofs.Action.Yields
import StreamTable.Proofs.Avro.Everywhere

namespace StreamTable
namespace Avro
namespace Document

open Schema (RegularFields RegularBranches)

/-- A symbol in which all names of fields are regular. -/
inductive Symbol.Regular : Symbol → Prop where
  | token (t : Token) (d : Option Cell) : Regular (.token t d)
  | sequence (parts : List Symbol) (h : ∀ s ∈ parts, s.Regular) : Regular (.sequence parts)
  | repeated (stop : Token) (parts : List Symbol) (h : ∀ s ∈ parts, s.Regular) :
    Regular (.repeated stop parts)
  | choice (labels : List (Option String)) (branches : List Symbol) (d : Option Cell)
    (h : ∀ s ∈ branches, s.Regular) : Regular (.choice labels branches d)
  | symbols (labels : Value) : Regular (.symbols labels)
  | recordStart (d : Option Cell) : Regular (.recordStart d)
  | recordEnd : Regular .recordEnd
  | fieldStart (name : Value) (h : name.Regular) : Regular (.fieldStart name)
  | fieldEnd : Regular .fieldEnd
  | unionEnd : Regular .unionEnd
  | root (start : Symbol) (h : start.Regular) : Regular (.root start)

def RegularSymbols (ss : List Symbol) : Prop := ∀ s ∈ ss, s.Regular

namespace RegularSymbols

theorem nil : RegularSymbols [] := nofun

theorem cons {s : Symbol} {ss : List Symbol} (h : s.Regular) (hs : RegularSymbols ss) :
    RegularSymbols (s :: ss) := by
  intro t ht
  obtain rfl | ht := List.mem_cons.mp ht
  · exact h
  · exact hs t ht

theorem one {s : Symbol} (h : s.Regular) : RegularSymbols [s] := .cons h .nil

theorem append {ss ts : List Symbol} (hs : RegularSymbols ss) (ht : RegularSymbols ts) :
    RegularSymbols (ss ++ ts) := by
  intro t h
  obtain h | h := List.mem_append.mp h
  · exact hs t h
  · exact ht t h

end RegularSymbols

namespace Grammar

open RegularSymbols (cons one append)

theorem primitive_regular (p : Primitive) (d : Option Cell) : (primitive p d).Regular := .token _ _

theorem nullOnly_regular : nullOnly.Regular :=
  .sequence _ (cons (.token _ _) (one (.choice _ _ _ (one (.token _ _)))))

variable {resolve : String → Expansion Symbol}

mutual

theorem expandWith_regular (hresolve : ∀ name symbol, Yields (resolve name) symbol →
    symbol.Regular) : ∀ {s : Schema} {d : Option Cell} {symbol : Symbol}, s.Regular →
    Yields (expandWith resolve s d) symbol → symbol.Regular
  | .primitive p, d, symbol, _, h => by
    rw [yields_pure h]
    exact primitive_regular p d
  | .named name, d, symbol, _, h => hresolve name symbol h
  | .annotated p attrs, d, symbol, _, h => by
    rw [yields_pure h]
    exact primitive_regular p d
  | .array items attrs, d, symbol, hs, h => by
    obtain ⟨item, hitem, h⟩ := yields_bind h
    rw [yields_pure h]
    have hitem := expandWith_regular hresolve hs.2 hitem
    exact .sequence _ (cons (.token _ _) (one (.repeated _ _ (cons hitem (one (.token _ _))))))
  | .map values attrs, d, symbol, hs, h => by
    obtain ⟨value, hvalue, h⟩ := yields_bind h
    rw [yields_pure h]
    have hvalue := expandWith_regular hresolve hs.2 hvalue
    exact .sequence _ (cons (.token _ _)
      (one (.repeated _ _ (cons (.token _ _) (cons (.token _ _) (one hvalue))))))
  | .enum name symbols attrs, d, symbol, _, h => by
    rw [yields_pure h]
    exact .sequence _ (cons (.token _ _) (one (.symbols _)))
  | .fixed name size attrs, d, symbol, _, h => by
    rw [yields_pure h]
    exact .token _ _
  | .record false name fields attrs, d, symbol, hs, h => by
    obtain ⟨names, -, h⟩ := yields_bind h
    obtain ⟨-, -, h⟩ := yields_bind h
    obtain ⟨parts, hparts, h⟩ := yields_bind h
    rw [yields_pure h]
    have hparts := expandFields_regular hresolve hs.2 hparts
    exact .sequence _ (append (cons (.recordStart d) hparts) (one .recordEnd))
  | .record true name fields attrs, d, symbol, _, h => absurd h not_yields_throw
  | .union branches, d, symbol, hs, h => by
    obtain ⟨symbols, hsymbols, h⟩ := yields_bind h
    rw [yields_pure h]
    have hsymbols := expandBranches_regular hresolve hs hsymbols
    exact .sequence _ (cons (.token _ _) (one (.choice _ _ _ hsymbols)))
  | .unchecked node, d, symbol, _, h => absurd h not_yields_throw

theorem expandBranches_regular (hresolve : ∀ name symbol, Yields (resolve name) symbol →
    symbol.Regular) : ∀ {branches : List Schema} {symbols : List Symbol}, RegularBranches branches →
    Yields (expandBranches resolve branches) symbols → RegularSymbols symbols
  | [], symbols, _, h => by
    rw [yields_pure h]
    exact .nil
  | s :: rest, symbols, hs, h => by
    obtain ⟨head, hhead, h⟩ := yields_bind h
    obtain ⟨tail, htail, h⟩ := yields_bind h
    rw [yields_pure h]
    exact .cons (expandWith_regular hresolve hs.1 hhead)
      (expandBranches_regular hresolve hs.2 htail)

theorem expandFields_regular (hresolve : ∀ name symbol, Yields (resolve name) symbol →
    symbol.Regular) : ∀ {fields : List Field} {record : String} {again : Bool}
    {symbols : List Symbol}, RegularFields fields →
    Yields (expandFields resolve record again fields) symbols → RegularSymbols symbols
  | [], record, again, symbols, _, h => by
    rw [yields_pure h]
    exact .nil
  | (f, s) :: rest, record, again, symbols, hs, h => by
    have hrest {inner : Symbol} (hinner : inner.Regular) (h : Yields (do
        let rest ← expandFields resolve record again rest
        pure (.fieldStart f.name :: inner :: .fieldEnd :: rest)) symbols) :
        RegularSymbols symbols := by
      obtain ⟨tail, htail, h⟩ := yields_bind h
      rw [yields_pure h]
      exact .cons (.fieldStart _ hs.1.name)
        (.cons hinner (.cons .fieldEnd (expandFields_regular hresolve hs.2.2 htail)))
    rw [expandFields] at h
    split at h
    · obtain ⟨inner, hinner, h⟩ := yields_bind h
      rw [yields_pure hinner] at h
      exact hrest nullOnly_regular h
    · obtain ⟨inner, hinner, h⟩ := yields_bind h
      exact hrest (expandWith_regular hresolve hs.2.1 hinner) h

end

theorem expand_regular {t : Schema} (ht : t.Regular) (fuel : Nat) : ∀ {s : Schema}
    {d : Option Cell} {symbol : Symbol}, s.Regular → Yields (expand (.of t) fuel s d) symbol →
    symbol.Regular := by
  induction fuel with
  | zero => exact fun _ h => absurd h not_yields_throw
  | succ fuel ih =>
    refine fun hs h => expandWith_regular (fun name symbol h => ?_) hs h
    cases hd : (Definitions.of t).find? name with
    | none =>
      rw [hd] at h
      exact absurd h not_yields_throw
    | some s =>
      rw [hd] at h
      exact ih (Schema.inherited_regular.find? ht hd) h

theorem of_regular {s : Schema} {symbol : Symbol} (hs : s.Regular) (h : Grammar.of s = .ok symbol) :
    symbol.Regular :=
  expand_regular hs _ hs (yields_of_run' h)

end Grammar
end Document
end Avro
end StreamTable
