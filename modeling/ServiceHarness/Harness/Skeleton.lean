import ServiceHarness.Harness.Template

/-!
# The text of a harness

The fixed Go source around the names of a service, as template lines: what
comes before the first case of the dispatch switch, the lines of one case, what
closes the switch, and the procedure of one method.
-/

namespace ServiceHarness.Harness

inductive FileSlot where
  | package
  | service
  deriving DecidableEq, Repr

/-- What a line may take from the service and one of its methods.  `key` is the
method name as a quoted literal. -/
inductive MethodSlot where
  | service
  | name
  | key
  | request
  | response
  deriving DecidableEq, Repr

def handlerType : String :=
  "*func(t *testing.T, expectedResponse, response interface\x7b\x7d)"

def generatorName : String := "scenario-harness-gen"

def preamble : List (Line FileSlot) :=
  [["// Code generated by ", generatorName, ". DO NOT EDIT."],
    [],
    ["package ", .slot .package],
    [],
    ["import ("],
    ["\t\"context\""],
    ["\t\"encoding/json\""],
    ["\t\"io/ioutil\""],
    ["\t\"reflect\""],
    ["\t\"testing\""],
    [],
    ["\t\"google.golang.org/grpc/codes\""],
    ["\t\"google.golang.org/grpc/status\""],
    [")"],
    []]

def runnerType : List (Line FileSlot) :=
  [["// ", .slot .service, "TestRunner is a runner to run the ", .slot .service, " service test."],
    ["type ", .slot .service, "TestRunner struct \x7b"],
    ["\tClient ", .slot .service, "Client"],
    ["\x7d"],
    [],
    ["// NewTestClient returns new ", .slot .service, "TestRunner."],
    ["func NewTestClient(client ", .slot .service, "Client) *", .slot .service, "TestRunner \x7b"],
    ["\treturn &", .slot .service, "TestRunner\x7b"],
    ["\t\tClient: client,"],
    ["\t\x7d"],
    ["\x7d"],
    []]

def entryPoint : List (Line FileSlot) :=
  [["// RunGRPCTest sends a gRPC request according to the scenario written in the JSON file ",
      "and tests the response."],
    ["// testHandlerMap takes a gRPC method name as a key and value has a function that ",
      "compares expected response and actual response and defines how to handle the test."],
    ["func (runner *", .slot .service, "TestRunner) RunGRPCTest(t *testing.T, jsonPath ",
      "string, testHandlerMap map[string]", handlerType, ") \x7b"],
    ["\tscenarioData, err := ioutil.ReadFile(jsonPath)"],
    ["\tif err != nil \x7b"],
    ["\t\tpanic(err)"],
    ["\t\x7d"],
    ["\tvar scenario []map[string]interface\x7b\x7d"],
    ["\tif err := json.Unmarshal(scenarioData, &scenario); err != nil \x7b"],
    ["\t\tpanic(err)"],
    ["\t\x7d"],
    ["\tfor _, testCase := range scenario \x7b"],
    ["\t\tctx := context.Background()"],
    ["\t\trunner.runTest(ctx, t, testCase, testHandlerMap)"],
    ["\t\x7d"],
    ["\x7d"],
    []]

def scenarioKeys : List (Line FileSlot) :=
  [["const ("],
    ["\tactionJSONKey            = \"action\""],
    ["\trequestJSONKey           = \"request\""],
    ["\texpectedResponseJSONKey  = \"expected_response\""],
    ["\terrorExpectationJSONKey  = \"error_expectation\""],
    ["\texpectedErrorCodeJSONKey = \"expected_error_code\""],
    [")"],
    []]

def dispatchHead : List (Line FileSlot) :=
  [["func (runner *", .slot .service, "TestRunner) runTest(ctx context.Context, t ",
      "*testing.T, testCase map[string]interface\x7b\x7d, testHandlerMap map[string]",
      handlerType, ") \x7b"],
    ["\taction := testCase[actionJSONKey].(string)"],
    ["\tf := func(t *testing.T) \x7b"],
    ["\t\tswitch action \x7b"]]

def opening : List (Line FileSlot) :=
  preamble ++ runnerType ++ entryPoint ++ scenarioKeys ++ dispatchHead

def dispatchCase : List (Line MethodSlot) :=
  [["\t\tcase ", .slot .key, ":"],
    ["\t\t\ttestHandler := testHandlerMap[", .slot .key, "]"],
    ["\t\t\trunner.test", .slot .name, "(ctx, t, testCase, testHandler)"]]

def dispatchEnd : List (Line FileSlot) :=
  [["\t\t\x7d"],
    ["\t\x7d"],
    ["\tt.Run(action, f)"],
    ["\x7d"],
    []]

def procedureCall : List (Line MethodSlot) :=
  [["func (runner *", .slot .service, "TestRunner) test", .slot .name, "(ctx context.Context, ",
      "t *testing.T, testCase map[string]interface\x7b\x7d, testHandler ", handlerType, ") \x7b"],
    ["\treqJSON, reqErr := json.Marshal(testCase[requestJSONKey])"],
    ["\tif reqErr != nil \x7b"],
    ["\t\tpanic(reqErr)"],
    ["\t\x7d"],
    ["\treq := ", .slot .request, "\x7b\x7d"],
    ["\tif decodeErr := json.Unmarshal(reqJSON, &req); decodeErr != nil \x7b"],
    ["\t\tpanic(decodeErr)"],
    ["\t\x7d"],
    ["\tres, err := runner.Client.", .slot .name, "(ctx, &req)"],
    ["\terrExpectation := testCase[errorExpectationJSONKey].(bool)"]]

def procedureErrors : List (Line MethodSlot) :=
  [["\tif errExpectation \x7b"],
    ["\t\terrCodeF := testCase[expectedErrorCodeJSONKey].(float64)"],
    ["\t\texpectedErrCode := codes.Code(uint32(errCodeF))"],
    ["\t\tactualErrCode := status.Code(err)"],
    ["\t\tif expectedErrCode != actualErrCode \x7b"],
    ["\t\t\tt.Fatalf(\"The error code of the response of ", .slot .name, " is not as ",
      "expected. Expected: %d, Actual: %d\\n\", expectedErrCode, actualErrCode)"],
    ["\t\t\x7d"],
    ["\t\x7d else \x7b"],
    ["\t\tif err != nil \x7b"],
    ["\t\t\tt.Fatalf(\"The call of ", .slot .name, " returned an unexpected error: %v\\n\", err)"],
    ["\t\t\x7d"]]

def procedureResponse : List (Line MethodSlot) :=
  [["\t\tresJSON, resErr := json.Marshal(testCase[expectedResponseJSONKey])"],
    ["\t\tif resErr != nil \x7b"],
    ["\t\t\tpanic(resErr)"],
    ["\t\t\x7d"],
    ["\t\texpectedRes := ", .slot .response, "\x7b\x7d"],
    ["\t\tif decodeErr := json.Unmarshal(resJSON, &expectedRes); decodeErr != nil \x7b"],
    ["\t\t\tpanic(decodeErr)"],
    ["\t\t\x7d"],
    ["\t\tif testHandler != nil \x7b"],
    ["\t\t\thandler := *testHandler"],
    ["\t\t\thandler(t, expectedRes, *res)"],
    ["\t\t\x7d else if !reflect.DeepEqual(expectedRes, *res) \x7b"],
    ["\t\t\tt.Fatal(\"The actual response of the ", .slot .name, " was not equal to the ",
      "expected response.\")"],
    ["\t\t\x7d"],
    ["\t\x7d"],
    ["\x7d"]]

def procedure : List (Line MethodSlot) :=
  procedureCall ++ procedureErrors ++ procedureResponse

end ServiceHarness.Harness
