import ShardQuery.Proofs.Identifier.ExtraLimit

/-!
# The shard of a hash identifier

The shard of a record is found from the hashes in its identifier. Whatever becomes of the
identifier, be it written, read under a limit, cut to its base, or all of that many times over, the
base stays what it was, so the hashes are always those of the content alone.
-/

namespace ShardQuery.Identifier

/-- What may be held in place of an identifier: the identifier itself, a copy without its extra
parts, and what the text of a copy reads as under any limit. -/
inductive Copy (u : Identifier) : Identifier → Prop
  | itself : Copy u u
  | bare {v : Identifier} : Copy u v → Copy u v.withoutExtra
  | reread {v w : Identifier} {limit : Int} : Copy u v → parse v.text limit = .ok w → Copy u w

theorem base_of_parse_text {u v : Identifier} {limit : Int} (hu : u.WellFormed)
    (h : parse u.text limit = .ok v) : v.base = u.base := by
  rw [parse_text_limit hu] at h
  cases h
  rfl

theorem wellFormed_of_base_eq {u v : Identifier} (h : v.base = u.base) (hu : u.WellFormed) :
    v.WellFormed := by
  rw [WellFormed, h]
  exact hu

theorem Copy.base_eq {u v : Identifier} (h : Copy u v) (hu : u.WellFormed) : v.base = u.base := by
  induction h with
  | itself => rfl
  | bare _ ih => exact ih
  | reread _ hread ih => exact (base_of_parse_text (wellFormed_of_base_eq ih hu) hread).trans ih

theorem shardedPortion_ofContentBy (hash : HashBase.SeededHash) (content : List UInt8)
    (time : Option Instant) (extras : List String) :
    (ofContentBy hash content time extras).base.shardedPortion =
      (ofContentBy hash content none []).text := rfl

theorem baseText_ofContentBy (hash : HashBase.SeededHash) (content : List UInt8)
    (time : Option Instant) (extras : List String) :
    (ofContentBy hash content time extras).base.text = (ofContentBy hash content time []).text :=
  rfl

/-- Under any seeded hash, the text of an identifier made of some content reads under every limit,
as an identifier whose shard is the text of the one made of the content alone, and whose base is
the text of the one made without extra parts. The same holds of every copy, however often it was
cut, written and read. -/
theorem shardedPortion_of_copy (hash : HashBase.SeededHash) (content : List UInt8)
    (time : Option Instant) (extras : List String) :
    (∀ n, ∃ u, parse (ofContentBy hash content time extras).text n = .ok u ∧
      u.base.shardedPortion = (ofContentBy hash content none []).text ∧
      u.base.text = (ofContentBy hash content time []).text) ∧
    ∀ v, Copy (ofContentBy hash content time extras) v →
      v.base.shardedPortion = (ofContentBy hash content none []).text ∧
      v.base.text = (ofContentBy hash content time []).text ∧
      ∀ n, ∃ w, parse v.text n = .ok w ∧ w.base = v.base := by
  have hwell := wellFormed_ofContentBy hash content time extras
  constructor
  · intro n
    refine ⟨_, parse_text_limit hwell n, ?_, ?_⟩
    · exact shardedPortion_ofContentBy hash content time extras
    · exact baseText_ofContentBy hash content time extras
  · intro v hcopy
    have hbase := hcopy.base_eq hwell
    refine ⟨?_, ?_, ?_⟩
    · rw [hbase, shardedPortion_ofContentBy]
    · rw [hbase, baseText_ofContentBy]
    · intro n
      exact ⟨_, parse_text_limit (wellFormed_of_base_eq hbase hwell) n, rfl⟩

end ShardQuery.Identifier
