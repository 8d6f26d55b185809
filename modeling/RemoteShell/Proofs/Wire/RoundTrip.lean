import Mathlib.Data.Option.Basic
import RemoteShell.Proofs.Json.RoundTrip
import RemoteShell.Wire

/-!
# Round trips of the service's types

Every type that operators see has a table of its fields or a list of its names, and its codec keeps
to them, so that its values survive being written and read back.  A document that was written by
somebody else may have unknown members, members in another order, `null` for a value that is
absent, or no port for the standard one: it is read as the value of its tidy form, and that is what
is written for the value.

## Main results

* `documents_round_trip`: all types make round trips
-/

namespace RemoteShell

open Lawful

/-! ## Names -/

instance : Shaped FaultKind where
  shape := .names
    ["invalid_input", "connection_timeout", "unreachable", "connection_lost",
      "authentication_failed", "key", "protocol", "circuit_open", "command_timeout",
      "elevation_unavailable", "cancelled"]
  proper := .names _

instance : Lawful FaultKind :=
  of_names FaultKind.name rfl (fun _ => rfl) (fun _ => rfl) fun k => by cases k <;> rfl

instance : Shaped Circuit.State := ⟨.names ["CLOSED", "OPEN", "HALF_OPEN"], .names _⟩

instance : Lawful Circuit.State :=
  of_names Circuit.State.name rfl (fun _ => rfl) (fun _ => rfl) fun s => by cases s <;> rfl

instance : Shaped Elevation.Method :=
  ⟨.names ["sudo", "doas", "sudo_with_password", "doas_with_password", "su"], .names _⟩

instance : Lawful Elevation.Method :=
  of_names Elevation.Method.name rfl (fun _ => rfl) (fun _ => rfl) fun m => by cases m <;> rfl

instance : Shaped Elevation.Outcome where
  shape := .names
    ["unavailable", "previously_failed", "declined", "wrong_password", "timed_out", "rejected"]
  proper := .names _

instance : Lawful Elevation.Outcome :=
  of_names Elevation.Outcome.name rfl (fun _ => rfl) (fun _ => rfl) fun o => by cases o <;> rfl

/-! ## Accounts, jump hosts and replies -/

instance : Shaped Login where
  shape := .record
    [("username", .required, shape String), ("host", .required, shape String),
      ("port", .required, shape UInt16)]
  proper := .record (by simp [Assoc.Keyed]) (by simp) (by simp)

instance : Lawful Login :=
  of_record rfl rfl (fun _ => rfl) (fun _ => by simp [Assoc.get?_cons])
    fun _ => by simp [Option.map_bind]

theorem write_defaultPort : write defaultPort = .nat 22 := rfl

theorem tidy_defaultPort : (shape UInt16).tidy (.nat 22) = some (.nat 22) := tidy_write defaultPort

instance : Shaped Hop where
  shape := .record
    [("host", .required, shape String), ("port", .standard (.nat 22), shape UInt16),
      ("username", .required, shape String), ("key_path", .optional, shape String)]
  proper := .record (by simp [Assoc.Keyed]) (by simp [tidy_defaultPort]) (by simp)

instance : Lawful Hop :=
  of_record rfl rfl (fun _ => rfl) (fun _ => by simp [Assoc.get?_cons])
    fun _ => by simp [tidyFields_standard write_defaultPort, Option.map_bind]

instance : Shaped Reply where
  shape := .record
    [("stdout", .required, shape String), ("stderr", .required, shape String),
      ("exit_code", .required, shape Int32)]
  proper := .record (by simp [Assoc.Keyed]) (by simp) (by simp)

instance : Lawful Reply :=
  of_record rfl rfl (fun _ => rfl) (fun _ => by simp [Assoc.get?_cons])
    fun _ => by simp [Option.map_bind]

/-! ## The answers of the tools -/

instance : Shaped ExecuteAnswer where
  shape := .record
    [("host", .required, shape String), ("stdout", .required, shape String),
      ("stderr", .required, shape String), ("exit_code", .required, shape Int32),
      ("elevated_with", .optional, shape String)]
  proper := .record (by simp [Assoc.Keyed]) (by simp) (by simp)

instance : Lawful ExecuteAnswer :=
  of_record rfl rfl (fun _ => rfl) (fun _ => by simp [Assoc.get?_cons])
    fun _ => by simp [Option.map_bind]

instance : Shaped ConnectionInfo where
  shape := .record
    [("id", .required, shape String), ("key", .required, shape Login),
      ("connected_at", .required, shape String), ("idle_secs", .required, shape UInt64),
      ("via_jump_host", .required, shape Bool)]
  proper := .record (by simp [Assoc.Keyed]) (by simp) (by simp)

instance : Lawful ConnectionInfo :=
  of_record rfl rfl (fun _ => rfl) (fun _ => by simp [Assoc.get?_cons])
    fun _ => by simp [Option.map_bind]

instance : Shaped ConnectionList where
  shape := .record
    [("connections", .required, shape (List ConnectionInfo)), ("count", .required, shape UInt64)]
  proper := .record (by simp [Assoc.Keyed]) (by simp) (by simp)

instance : Lawful ConnectionList :=
  of_record rfl rfl (fun _ => rfl) (fun _ => by simp [Assoc.get?_cons])
    fun _ => by simp [Option.map_bind]

instance : Shaped ResetAnswer where
  shape := .record
    [("host", .required, shape String), ("reset", .required, shape Bool),
      ("message", .required, shape String)]
  proper := .record (by simp [Assoc.Keyed]) (by simp) (by simp)

instance : Lawful ResetAnswer :=
  of_record rfl rfl (fun _ => rfl) (fun _ => by simp [Assoc.get?_cons])
    fun _ => by simp [Option.map_bind]

instance : Shaped DisconnectAnswer where
  shape := .record
    [("host", .optional, shape String), ("closed", .required, shape UInt64),
      ("message", .required, shape String)]
  proper := .record (by simp [Assoc.Keyed]) (by simp) (by simp)

instance : Lawful DisconnectAnswer :=
  of_record rfl rfl (fun _ => rfl) (fun _ => by simp [Assoc.get?_append, Assoc.get?_cons])
    fun _ => by simp [Option.map_bind]

instance : Shaped ClearAnswer where
  shape := .record
    [("host", .optional, shape String), ("cleared", .required, shape UInt64),
      ("message", .required, shape String)]
  proper := .record (by simp [Assoc.Keyed]) (by simp) (by simp)

instance : Lawful ClearAnswer :=
  of_record rfl rfl (fun _ => rfl) (fun _ => by simp [Assoc.get?_append, Assoc.get?_cons])
    fun _ => by simp [Option.map_bind]

/-! ## Snapshots of the service -/

instance : Shaped Circuit.Status where
  shape := .record
    [("host", .required, shape String), ("state", .required, shape Circuit.State),
      ("failure_count", .required, shape UInt32),
      ("cooldown_remaining_secs", .required, shape UInt64)]
  proper := .record (by simp [Assoc.Keyed]) (by simp) (by simp)

instance : Lawful Circuit.Status :=
  of_record rfl rfl (fun _ => rfl) (fun _ => by simp [Assoc.get?_cons])
    fun _ => by simp [Option.map_bind]

instance : Shaped Elevation.Attempt where
  shape := .record
    [("method", .required, shape Elevation.Method),
      ("outcome", .required, shape Elevation.Outcome)]
  proper := .record (by simp [Assoc.Keyed]) (by simp) (by simp)

instance : Lawful Elevation.Attempt :=
  of_record rfl rfl (fun _ => rfl) (fun _ => by simp [Assoc.get?_cons])
    fun _ => by simp [Option.map_bind]

instance : Shaped Elevation.Summary where
  shape := .record
    [("user", .required, shape String), ("is_root", .required, shape Bool),
      ("groups", .required, shape (List String)),
      ("available_methods", .required, shape (List Elevation.Method)),
      ("failed_methods", .required, shape (List Elevation.Method)),
      ("verified_methods", .required, shape (List Elevation.Method))]
  proper := .record (by simp [Assoc.Keyed]) (by simp) (by simp)

instance : Lawful Elevation.Summary :=
  of_record rfl rfl (fun _ => rfl) (fun _ => by simp [Assoc.get?_cons])
    fun _ => by simp [Option.map_bind]

instance : Shaped Pool.Stats where
  shape := .record
    [("total", .required, shape UInt64), ("max_connections", .required, shape UInt64),
      ("per_host", .required, shape Counts), ("created", .required, shape UInt64),
      ("reused", .required, shape UInt64), ("evicted", .required, shape UInt64),
      ("closed", .required, shape UInt64)]
  proper := .record (by simp [Assoc.Keyed]) (by simp) (by simp)

instance : Lawful Pool.Stats :=
  of_record rfl rfl (fun _ => rfl) (fun _ => by simp [Assoc.get?_cons])
    fun _ => by simp [Option.map_bind]

/-! ## Round trips -/

/-- **All types that operators see make round trips.** -/
theorem documents_round_trip :
    (RoundTrip Login ∧ RoundTrip Hop ∧ RoundTrip Reply) ∧
    (RoundTrip ExecuteAnswer ∧ RoundTrip ConnectionInfo ∧ RoundTrip ConnectionList ∧
      RoundTrip ResetAnswer ∧ RoundTrip DisconnectAnswer ∧ RoundTrip ClearAnswer) ∧
    (RoundTrip Circuit.Status ∧ RoundTrip Pool.Stats ∧ RoundTrip Elevation.Summary ∧
      RoundTrip Elevation.Attempt) ∧
    RoundTrip Circuit.State ∧ RoundTrip Elevation.Method ∧ RoundTrip Elevation.Outcome ∧
      RoundTrip FaultKind := by
  refine ⟨⟨?_, ?_, ?_⟩, ⟨?_, ?_, ?_, ?_, ?_, ?_⟩, ⟨?_, ?_, ?_, ?_⟩, ?_, ?_, ?_, ?_⟩ <;>
    exact roundTrip _

/-- A jump host's document with its fields in another order, an unknown one among them, `null` for
the key and no port is read as what is written for the host. -/
theorem bastion_read_back :
    let bastion : Hop := ⟨"bastion", 22, "ops", none⟩
    let d : Json := .obj
      [("username", .str "ops"), ("region", .str "north"), ("host", .str "bastion"),
        ("key_path", .null)]
    write bastion =
        .obj [("host", .str "bastion"), ("port", .nat 22), ("username", .str "ops")] ∧
      (shape Hop).Variant d (write bastion) ∧ Codec.read d = some bastion ∧
        Codec.read (write bastion) = some bastion := by
  intro bastion d
  have hknown : (shape Hop).Variant d
      (.obj [("username", .str "ops"), ("host", .str "bastion"), ("key_path", .null)]) :=
    .symm (.unknown [_] [_, _] (by simp))
  have hkey : (shape Hop).Variant
      (.obj [("username", .str "ops"), ("host", .str "bastion"), ("key_path", .null)])
      (.obj [("username", .str "ops"), ("host", .str "bastion")]) :=
    .symm (.standIn [_, _] [] rfl (by simp [Presence.standIn]))
  have horder : (shape Hop).Variant
      (.obj [("username", .str "ops"), ("host", .str "bastion")])
      (.obj [("host", .str "bastion"), ("username", .str "ops")]) :=
    .order _ [] [] (by decide)
  have hport : (shape Hop).Variant
      (.obj [("host", .str "bastion"), ("username", .str "ops")])
      (.obj [("host", .str "bastion"), ("port", .nat 22), ("username", .str "ops")]) :=
    .standIn [_] [_] rfl (by simp [Presence.standIn])
  have hvariant : (shape Hop).Variant d (write bastion) :=
    ((hknown.trans hkey).trans horder).trans hport
  obtain ⟨⟨-, hhop, -⟩, -⟩ := documents_round_trip
  have hread : Codec.read d = some bastion :=
    (hhop.read_variant d (write bastion) hvariant).trans (hhop.read_write bastion)
  exact ⟨rfl, hvariant, hread, hhop.reread d bastion hread⟩

end RemoteShell
