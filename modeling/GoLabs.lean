import GoLabs.Runtime
import GoLabs.Runtime.Strconv
import GoLabs.Sarama.Retry
import GoLabs.Sarama.Pipeline
import GoLabs.Saga.Step
import GoLabs.Saga.Topology
import GoLabs.Webservice.Db
import GoLabs.Webservice.Consumer
import GoLabs.Webservice.Atomicity
import GoLabs.Webservice.ConsumeLoop
import GoLabs.Webservice.Gateway
import GoLabs.Webservice.Redelivery
import GoLabs.Webservice.Interleaving
import GoLabs.Webservice.Ordering
import GoLabs.Webservice.Commands
import GoLabs.Webservice.Operations
import GoLabs.Sarama.Tracing
import GoLabs.Swagger.Messages
import GoLabs.Strings.Utf8
import GoLabs.Strings.Trim
import GoLabs.Strings.Encoding
import GoLabs.Strings.Fields
import GoLabs.Mockgen.Service
import GoLabs.Gomock.Order
import GoLabs.Grpc.Greeter
import GoLabs.Tooling.Word
import GoLabs.Race.Counter
import GoLabs.Patterns.FanIn
import GoLabs.Shortener.Base62
import GoLabs.Patterns.WorkerPool
