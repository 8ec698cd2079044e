import KeywordDocs.Samples.Basic

/-!
# A Library for Databases

There is no database behind the library: queries have fixed answers.
-/

namespace KeywordDocs.Samples

def row (columns : List (String × Value)) : Value := .dict (columns.map fun (k, v) => (.str k, v))

def closeTransaction : Playing Value := do
  match ← stateField "_transactions" with
  | .list ts => setState "_transactions" (.list ts.dropLast)
  | _ => pure ()
  return .none

def queryParams : Formal := .optional "params" .none

def database : SampleLibrary where
  initial := [("_connection", .none), ("_transactions", .list [])]
  keywords := [
    { name := "connect_to_database"
      formals := [.required "host", .required "database", .required "username",
        .required "password", .optional "port" (.int 5432)]
      body := fun
        | [host, name, user, _, port] => do
          setState "_connection"
            (row [("host", host), ("database", name), ("username", user), ("port", port)])
          return .none
        | _ => throw .wrongKind },
    keyword0 "disconnect_from_database" do
      setState "_connection" .none
      return .none,
    keyword2 "execute_query" (.required "query") queryParams fun _ _ => return .list [
      row [("id", .int 1), ("name", .str "John"), ("age", .int 30)],
      row [("id", .int 2), ("name", .str "Jane"), ("age", .int 28)]],
    keyword2 "execute_non_query" (.required "query") queryParams fun _ _ => return .int 1,
    keyword2 "insert_record" (.required "table") (.required "data") fun _ _ => return .int 123,
    keyword4 "update_record" (.required "table") (.required "data") (.required "where_clause")
      queryParams fun _ _ _ _ => return .int 1,
    keyword3 "delete_record" (.required "table") (.required "where_clause") queryParams
      fun _ _ _ => return .int 1,
    keyword3 "get_table_count" (.required "table") (.optional "where_clause" .none) queryParams
      fun _ _ _ => return .int 42,
    keyword0 "begin_transaction" do
      match ← stateField "_transactions" with
      | .list ts => setState "_transactions" (.list (ts ++ [row [("started", .moment (← get).now)]]))
      | _ => pure ()
      return .none,
    keyword0 "commit_transaction" closeTransaction,
    keyword0 "rollback_transaction" closeTransaction,
    keyword2 "query_single_row" (.required "query") queryParams fun _ _ =>
      return row [("id", .int 1), ("name", .str "John"), ("email", .str "john@example.com")],
    keyword2 "query_single_value" (.required "query") queryParams fun _ _ => return .int 42]

end KeywordDocs.Samples
